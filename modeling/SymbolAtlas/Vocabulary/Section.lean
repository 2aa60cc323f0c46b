import SymbolAtlas.Vocabulary.Protection

/-!
# Sections

The named sections of an entity's page under which members are filed. A member of a class goes to a
declaration section, chosen by kind, protection and staticness, and to a documentation section, in
which protections are not told apart. A namespace has one section of each sort for every kind of
member it holds.
-/

set_option autoImplicit false

namespace SymbolAtlas

/-- Protections that signals and slots can have. There are none at package level. -/
inductive SignalAccess where
  | pub
  | prot
  | priv
deriving DecidableEq, Repr, Inhabited

/-- What a documentation section of a class holds. -/
inductive ClassTopic where
  | typedefs
  | enumerations
  | enumValues
  | constructors
  | functions
  | relatedFunctions
  | dataMembers
  | properties
  | events
  | interfaces
  | services
deriving DecidableEq, Repr, Inhabited

/-- What a section of a namespace holds. -/
inductive NamespaceTopic where
  | defines
  | typedefs
  | enumerations
  | functions
  | dataMembers
deriving DecidableEq, Repr, Inhabited

/-- A section of an entity's page. -/
inductive Section where
  | types (p : Protection)
  | typedefs (p : Protection)
  | slots (a : SignalAccess)
  | signals (a : SignalAccess)
  | methods (p : Protection)
  | staticMethods (p : Protection)
  | attributes (p : Protection)
  | staticAttributes (p : Protection)
  | services
  | interfaces
  | dcopMethods
  | properties
  | events
  | friends
  | related
  | classDocs (topic : ClassTopic)
  | namespaceDecls (topic : NamespaceTopic)
  | namespaceDocs (topic : NamespaceTopic)
deriving DecidableEq, Repr, Inhabited

namespace SignalAccess

/-- The access under which a signal or slot of a protection is filed: package ones count as
protected. -/
def ofProtection : Protection → SignalAccess
  | .pub => pub
  | .prot | .pkg => prot
  | .priv => priv

/-- The protection that the access stands for. -/
def protection : SignalAccess → Protection
  | pub => .pub
  | prot => .prot
  | priv => .priv

end SignalAccess

namespace ClassTopic

/-- Every topic, in the order in which the sections are shown. -/
def all : List ClassTopic :=
  [typedefs, enumerations, enumValues, constructors, functions, relatedFunctions, dataMembers,
    properties, events, interfaces, services]

/-- The dashed name of the documentation section on a topic. -/
def name : ClassTopic → String
  | typedefs => "typedef-members"
  | enumerations => "enum-members"
  | enumValues => "enum-val-members"
  | constructors => "constructors"
  | functions => "function-members"
  | relatedFunctions => "related-members"
  | dataMembers => "variable-members"
  | properties => "property-members"
  | events => "event-members"
  | interfaces => "interface-members"
  | services => "service-members"

end ClassTopic

namespace NamespaceTopic

/-- Every topic, in the order in which the sections are shown. -/
def all : List NamespaceTopic :=
  [defines, typedefs, enumerations, functions, dataMembers]

/-- The word for a topic in the dashed name of a section. -/
def word : NamespaceTopic → String
  | defines => "define"
  | typedefs => "typedef"
  | enumerations => "enum"
  | functions => "func"
  | dataMembers => "var"

end NamespaceTopic

namespace Section

/-- The abbreviation of a protection in the dashed name of a section. -/
def levelWord : Protection → String
  | .pub => "pub"
  | .prot => "pro"
  | .pkg => "pac"
  | .priv => "pri"

/-- The dashed name of a section. -/
def name : Section → String
  | types p => levelWord p ++ "-types"
  | typedefs p => levelWord p ++ "-typedefs"
  | slots a => levelWord a.protection ++ "-slots"
  | signals a => levelWord a.protection ++ "-signals"
  | methods p => levelWord p ++ "-methods"
  | staticMethods p => levelWord p ++ "-static-methods"
  | attributes p => levelWord p ++ "-attribs"
  | staticAttributes p => levelWord p ++ "-static-attribs"
  | services => "services"
  | interfaces => "interfaces"
  | dcopMethods => "dcop-methods"
  | properties => "properties"
  | events => "events"
  | friends => "friends"
  | related => "related"
  | classDocs topic => topic.name
  | namespaceDecls topic => "dec-" ++ topic.word ++ "-members"
  | namespaceDocs topic => "doc-" ++ topic.word ++ "-members"

/-- The declaration sections of a class in the order in which they are shown: the public ones, the
protected ones, those at package level and the private ones. -/
def classDeclarations : List Section :=
  [types .pub, typedefs .pub, services, interfaces, slots .pub, signals .pub, methods .pub,
    dcopMethods, staticMethods .pub, attributes .pub, staticAttributes .pub,
    types .prot, typedefs .prot, slots .prot, signals .prot, methods .prot, staticMethods .prot,
    attributes .prot, staticAttributes .prot,
    types .pkg, typedefs .pkg, methods .pkg, staticMethods .pkg, attributes .pkg,
    staticAttributes .pkg, properties, events,
    types .priv, typedefs .priv, slots .priv, signals .priv, methods .priv, staticMethods .priv,
    attributes .priv, staticAttributes .priv, friends, related]

/-- The documentation sections of a class. -/
def classDocumentation : List Section :=
  ClassTopic.all.map classDocs

/-- The declaration sections of a namespace in the order in which they are shown. -/
def namespaceDeclarations : List Section :=
  NamespaceTopic.all.map namespaceDecls

/-- The documentation sections of a namespace. -/
def namespaceDocumentation : List Section :=
  NamespaceTopic.all.map namespaceDocs

/-- Every section. -/
def all : List Section :=
  classDeclarations ++ classDocumentation ++ namespaceDeclarations ++ namespaceDocumentation

theorem mem_all : ∀ s : Section, s ∈ all
  | types p | typedefs p | methods p | staticMethods p | attributes p | staticAttributes p => by
    cases p <;> decide
  | slots a | signals a => by cases a <;> decide
  | services | interfaces | dcopMethods | properties | events | friends | related => by decide
  | classDocs t => by cases t <;> decide
  | namespaceDecls t | namespaceDocs t => by cases t <;> decide

/-- Sections in which members are documented in full; the others hold declarations. -/
def isDocumentation : Section → Bool
  | classDocs _ | namespaceDocs _ => true
  | _ => false

/-- The section with a dashed name. -/
def ofName? (name : String) : Option Section :=
  all.find? fun s => s.name == name

/-- The name of a section with underscores for dashes. -/
def fieldName (s : Section) : String :=
  String.ofList (s.name.toList.map fun c => if c == '-' then '_' else c)

end Section

end SymbolAtlas
