import SymbolAtlas.Member
import SymbolAtlas.Options
import SymbolAtlas.Vocabulary.Section

/-!
# Placement of members

The sections under which a member is filed, as a decision table over its kind, the protection at
which it is seen, and a few options.
-/

set_option autoImplicit false

namespace SymbolAtlas

/-- Where a member of a class goes. -/
structure Placement where
  declaration : Section
  /-- None if the member is not documented at its protection. -/
  documentation : Option Section
  /-- Whether a class of plain data may have such a member. -/
  keepsSimple : Bool
deriving DecidableEq, Repr

/-- Whether members at a protection are documented at all. -/
def Options.shows (options : Options) : Protection → Bool
  | .pub | .prot => true
  | .priv => options.extractPrivate
  | .pkg => options.extractPackage

namespace Placement

/-- The topic under which a member of a kind is documented. -/
def topic (m : Member) : ClassTopic :=
  match m.kind with
  | .typedef => .typedefs
  | .enumeration => .enumerations
  | .enumValue => .enumValues
  | .variableKind => .dataMembers
  | _ => if m.flags.isConstructor || m.flags.isDestructor then .constructors else .functions

/-- Where a member of a class goes that is seen at a protection; none if no class can have a member
of its kind. Related members and friends have sections of their own. -/
def ofMember? (m : Member) (p : Protection) (options : Options) : Option Placement :=
  let isShown := options.shows p
  let whenShown (topic : ClassTopic) := if isShown then some (Section.classDocs topic) else none
  if m.flags.isRelated && isShown then
    some ⟨.related, some (.classDocs .relatedFunctions), false⟩
  else if m.flags.isFriend then
    some ⟨.friends, some (.classDocs .relatedFunctions), false⟩
  else
    match m.kind with
    | .define => none
    | .service => some ⟨.services, some (.classDocs .services), false⟩
    | .interface => some ⟨.interfaces, some (.classDocs .interfaces), false⟩
    | .dcop => some ⟨.dcopMethods, some (.classDocs .functions), false⟩
    | .property => some ⟨.properties, some (.classDocs .properties), false⟩
    | .event => some ⟨.events, some (.classDocs .events), false⟩
    | .signal => some ⟨.signals (.ofProtection p), whenShown .functions, false⟩
    | .slot => some ⟨.slots (.ofProtection p), whenShown .functions, false⟩
    | .variableKind =>
      if m.flags.isStatic then some ⟨.staticAttributes p, whenShown .dataMembers, false⟩
      else
        some ⟨.attributes p, whenShown .dataMembers, p == .pub && !m.flags.isFunctionPointer⟩
    | .typedef =>
      if m.flags.isStatic then some ⟨.staticMethods p, whenShown .typedefs, false⟩
      else
        some ⟨.typedefs p, whenShown .typedefs,
          p == .pub && !Text.occursIn [')', '('] m.typeText.toList⟩
    | .enumeration | .enumValue =>
      if m.flags.isStatic then some ⟨.staticMethods p, whenShown (topic m), false⟩
      else some ⟨.types p, whenShown (topic m), false⟩
    | .function =>
      if m.flags.isStatic then some ⟨.staticMethods p, whenShown (topic m), false⟩
      else if m.flags.isConstructor || m.flags.isDestructor then
        some ⟨.methods p, some (.classDocs .constructors), false⟩
      else some ⟨.methods p, whenShown .functions, false⟩

end Placement

/-- Whether namespaces can have members of a kind. -/
def MemberKind.isInNamespaces : MemberKind → Bool
  | .variableKind | .function | .typedef | .enumeration | .define | .enumValue => true
  | _ => false

/-- The topic under which a namespace files members of a kind. Enumeration values are only listed
by name. -/
def MemberKind.namespaceTopic? : MemberKind → Option NamespaceTopic
  | .variableKind => some .dataMembers
  | .function => some .functions
  | .typedef => some .typedefs
  | .enumeration => some .enumerations
  | .define => some .defines
  | _ => none

end SymbolAtlas
