import SymbolAtlas.Atlas.Naming
import SymbolAtlas.Atlas.Visibility

/-!
# Tag files

A tag file lets the documentation of another project link into this one. It lists every namespace
and class that has a page, with its members, their anchors and the file names, in an order that
depends on nothing but the atlas. In the text of elements and attributes the five characters with a
meaning of their own are written as entities.
-/

set_option autoImplicit false

namespace SymbolAtlas

namespace Text

/-- A character inside an element or an attribute. -/
def markupChar (c : Char) : List Char :=
  if c == '&' then "&amp;".toList
  else if c == '<' then "&lt;".toList
  else if c == '>' then "&gt;".toList
  else if c == '"' then "&quot;".toList
  else if c.toNat == 0x27 then "&apos;".toList
  else [c]

/-- Text inside an element or an attribute. -/
def markup (s : String) : String :=
  String.ofList (s.toList.flatMap markupChar)

end Text

namespace Markup

/-- Attributes as they are written, with values that need no entities. -/
def renderAttributes (attributes : List (String × String)) : String :=
  String.join (attributes.map fun (key, value) => " " ++ key ++ "=\"" ++ value ++ "\"")

/-- An element as it is written. -/
def tagged (name : String) (attributes : List (String × String)) (inner : String) : String :=
  "<" ++ name ++ renderAttributes attributes ++ ">" ++ inner ++ ("</" ++ name ++ ">")

end Markup

namespace TagFile

/-- A base of a listed class. -/
structure Base where
  protection : Protection
  isVirtual : Bool
  name : String
deriving DecidableEq, Repr

/-- An entity inside a listed one. -/
inductive Inner where
  | ofNamespace (name : String)
  | ofClass (kind name : String)
deriving DecidableEq, Repr

/-- A listed member. -/
structure Entry where
  isFriend : Bool
  kind : MemberKind
  protection : Protection
  virtualness : Virtualness
  isStatic : Bool
  /-- None if the type is that of an anonymous entity. -/
  typeText : Option String
  name : String
  anchorFile : String
  anchor : String
  args : String
deriving DecidableEq, Repr

/-- A listed namespace or class. -/
structure Compound where
  kind : String
  isObjectiveC : Bool := false
  name : String
  fileName : String
  /-- The types of the template parameters with their names. -/
  formals : List (String × String) := []
  bases : List Base := []
  inner : List Inner := []
  members : List Entry := []
deriving DecidableEq, Repr

/-! ## What is listed -/

/-- The entry of a member, if it has an anchor. -/
def listing? (a : Atlas) (id : MemberId) : Option Entry :=
  match a.member? id with
  | none => none
  | some m =>
    if a.isMemberLinkable id then
      some {
        isFriend := m.flags.isFriend
        kind := m.kind
        protection := m.protection
        virtualness := m.virtualness
        isStatic := m.flags.isStatic
        typeText := if ['@'].isPrefixOf m.typeText.toList then none else some m.typeText
        name := m.name
        anchorFile := ((m.owner.map a.fileBase).getD "") ++ a.options.htmlFileExtension
        anchor := a.anchor id
        args := m.argsText }
    else none

/-- The entries of the members that an entity has under some sections. -/
def entries (a : Atlas) (id : EntityId) (sections : List Section) : List Entry :=
  (sections.flatMap (a.sectionMembers id)).filterMap (listing? a)

/-- A class inside a listed entity. -/
def innerClass (a : Atlas) (id : EntityId) : Inner :=
  .ofClass (a.kindWord id) (a.name id)

/-- What is listed for a namespace. -/
def ofNamespace (a : Atlas) (e : Entity) : Compound where
  kind := e.kindWord
  name := e.name
  fileName := a.fileBase e.id ++ a.options.htmlFileExtension
  inner :=
    (e.innerNamespaces.filter a.isLinkableHere).map (fun id => .ofNamespace (a.name id))
      ++ (e.innerClasses.filter a.isLinkableHere).map (innerClass a)
  members := entries a e.id Section.namespaceDeclarations

/-- Whether a class is listed inside another one. -/
def isListedInside (a : Atlas) (id : EntityId) : Bool :=
  ((a.entity? id).any fun e => !e.isTemplateInstance && a.options.shows e.protection)
    && a.isLinkableHere id

/-- What is listed for a class. -/
def ofClass (a : Atlas) (e : Entity) (c : ClassBody) : Compound where
  kind := if e.kindWord == "type" && e.language == .fortran then "struct" else e.kindWord
  isObjectiveC := e.language == .objc
  name := e.name
  fileName := a.fileBase e.id ++ a.options.htmlFileExtension
  formals := c.formals.map fun formal => (formal.typeText, formal.name)
  bases := (c.bases.filter fun edge => a.isLinkable edge.target).map fun edge =>
    { protection := edge.protection
      isVirtual := edge.virtualness == .virtual
      name := a.name edge.target }
  inner := (e.innerClasses.filter (isListedInside a)).map (innerClass a)
  members := entries a e.id Section.classDeclarations

/-- The entities that satisfy a condition, in the order of their names. -/
def sortedEntities (a : Atlas) (p : Entity → Bool) : List Entity :=
  (a.entities.toList.filter p).mergeSort fun e e' => decide (e.name ≤ e'.name)

/-- What is listed for an atlas: the namespaces and then the classes, instances of templates left
out. -/
def compounds (a : Atlas) : List Compound :=
  (sortedEntities a fun e => e.isNamespace && a.isLinkableHere e.id).map (ofNamespace a)
    ++ (sortedEntities a fun e =>
        e.isClass && !e.isTemplateInstance && a.isLinkableHere e.id).filterMap
      fun e => e.class?.map (ofClass a e)

/-! ## How it is written -/

/-- An element on a line of its own. -/
def line (indent name : String) (attributes : List (String × String)) (inner : String) : String :=
  indent ++ Markup.tagged name attributes inner ++ "\n"

/-- An element with nothing but text, on a line of its own. -/
def element (indent name : String) (text : String) : String :=
  line indent name [] (Text.markup text)

/-- An attribute that is there under a condition. -/
def optional (isThere : Bool) (key value : String) : List (String × String) :=
  if isThere then [(key, value)] else []

/-- The text of a template parameter. -/
def formalText (formal : String × String) : String :=
  if formal.2 == "" then formal.1 else formal.1 ++ " " ++ formal.2

/-- A template parameter. -/
def renderFormal (formal : String × String) : String :=
  element "    " "templarg" (formalText formal)

/-- The attributes of a base. -/
def Base.attributes (base : Base) : List (String × String) :=
  optional (base.protection == .prot) "protection" "protected"
    ++ optional (base.protection == .priv) "protection" "private"
    ++ optional base.isVirtual "virtualness" "virtual"

/-- A base. -/
def renderBase (base : Base) : String :=
  line "    " "base" base.attributes (Text.markup base.name)

/-- An entity inside a listed one. -/
def renderInner : Inner → String
  | .ofNamespace name => element "    " "namespace" name
  | .ofClass kind name => line "    " "class" [("kind", kind)] (Text.markup name)

/-- The attributes of a member. -/
def Entry.attributes (m : Entry) : List (String × String) :=
  [("kind", (if m.isFriend then "friend" else "") ++ m.kind.name)]
    ++ optional (!(m.protection == .pub)) "protection" m.protection.name
    ++ optional (!m.virtualness.isNormal) "virtualness" m.virtualness.name
    ++ optional m.isStatic "static" "yes"

/-- A member. -/
def renderEntry (m : Entry) : String :=
  line "    " "member" m.attributes
    ("\n" ++ String.join (m.typeText.toList.map (element "      " "type")) ++
      element "      " "name" m.name ++ element "      " "anchorfile" m.anchorFile ++
      element "      " "anchor" m.anchor ++ element "      " "arglist" m.args ++ "    ")

/-- The attributes of a namespace or class. -/
def Compound.attributes (c : Compound) : List (String × String) :=
  [("kind", c.kind)] ++ optional c.isObjectiveC "objc" "yes"

/-- A namespace or class. -/
def renderCompound (c : Compound) : String :=
  line "  " "compound" c.attributes
    ("\n" ++ element "    " "name" c.name ++ element "    " "filename" c.fileName ++
      String.join (c.formals.map renderFormal) ++ String.join (c.bases.map renderBase) ++
      String.join (c.inner.map renderInner) ++ String.join (c.members.map renderEntry) ++ "  ")

/-- What every tag file begins with. -/
def prologue : String :=
  "<?" ++ "xml version='1.0' encoding='UTF-8' standalone='yes' ?" ++ ">"

/-- The text of a tag file. -/
def renderCompounds (compounds : List Compound) : String :=
  prologue ++ "\n" ++ line "" "tagfile" [] ("\n" ++ String.join (compounds.map renderCompound))

/-- The tag file of an atlas. -/
def render (a : Atlas) : String :=
  renderCompounds (compounds a)

end TagFile

end SymbolAtlas
