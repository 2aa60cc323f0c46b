import SymbolAtlas.Declaration.Basic
import SymbolAtlas.Json.Reader

/-!
# Reading declarations

Declarations are read strictly: a field has the type it is documented with, and no field is given
twice. Fields that are not known are passed over, and missing ones take their defaults. The
document, an entity and a member may also be written as an array of their fields in order.
-/

set_option autoImplicit false

namespace SymbolAtlas

namespace Json

/-- A text. -/
def asText? : Json → Option String
  | text literal => literal
  | _ => none

/-- A text or nothing. -/
def asOptionalText? : Json → Option (Option String)
  | null => some none
  | text literal => literal.map some
  | _ => none

/-- A truth value. -/
def asBool? : Json → Option Bool
  | bool b => some b
  | _ => none

/-- A natural number below a bound, written as an integer without a sign. -/
def asNat? (bound : Nat) : Json → Option Nat
  | number n =>
    if !n.isNegative && n.fraction.isNone && n.exponent.isNone && n.whole < bound then some n.whole
    else none
  | _ => none

/-- An array of elements of one kind. -/
def asList? {α : Type} (read : Json → Option α) : Json → Option (List α)
  | array items => items.mapM read
  | _ => none

/-- The fields of a record, by name or in order. -/
inductive Fields where
  | named (fields : List (Option String × Json))
  | ordered (items : List Json)

namespace Fields

/-- The fields of an object, or of an array with at most as many elements as there are fields. -/
def ofJson? (count : Nat) : Json → Option Fields
  | object fields => if fields.all (·.1.isSome) then some (named fields) else none
  | array items => if items.length ≤ count then some (ordered items) else none
  | _ => none

/-- The value of a field with a position and a name; the default if it is missing. -/
def get? {α : Type} (fields : Fields) (position : Nat) (name : String) (read : Json → Option α)
    (missing : α) : Option α :=
  match fields with
  | named fields =>
    match fieldsNamed name fields with
    | [] => some missing
    | [value] => read value
    | _ => none
  | ordered items =>
    match items[position]? with
    | none => some missing
    | some value => read value

end Fields

/-- Whether a number can be represented as a double without overflow. -/
def isDouble (n : Numeral) : Bool :=
  let fraction := n.fraction.getD []
  Text.isDouble (Text.digitsValue (Nat.toDigits 10 n.whole ++ fraction))
    (n.exponent.getD 0 - fraction.length)

end Json

/-- How many arrays and objects may be open inside a base. -/
def BaseDecl.maxDepth : Nat := 123

/-- Whether a value may stand for a base, whatever it holds: all texts in it denote something, all
numbers are representable, and it is not too deep. -/
def BaseDecl.isReadable (v : Json) : Bool :=
  v.allLiterals Option.isSome Json.isDouble && v.depth ≤ maxDepth

/-- Reads the declaration of a base. -/
def BaseDecl.ofJson? (v : Json) : Option BaseDecl :=
  if isReadable v then
    match v with
    | .text literal => literal.map plain
    | .object fields => do
      let fields := Json.Fields.named fields
      let name ← (← fields.get? 0 "name" (fun v => v.asText?.map some) none)
      let protection ← fields.get? 1 "protection" Json.asOptionalText? none
      let virtualness ← fields.get? 2 "virtualness" Json.asOptionalText? none
      return detailed name protection virtualness
    | _ => none
  else none

/-- Reads the declaration of a member. -/
def MemberDecl.ofJson? (v : Json) : Option MemberDecl := do
  let fields ← Json.Fields.ofJson? 15 v
  let name ← fields.get? 0 "name" Json.asText? ""
  let kind ← fields.get? 1 "kind" Json.asText? ""
  let protection ← fields.get? 2 "protection" Json.asOptionalText? none
  let virtualness ← fields.get? 3 "virtualness" Json.asOptionalText? none
  let typeText ← fields.get? 4 "type" Json.asText? ""
  let args ← fields.get? 5 "args" Json.asText? ""
  let isStatic ← fields.get? 6 "static" Json.asBool? false
  let isFriend ← fields.get? 7 "friend" Json.asBool? false
  let isRelated ← fields.get? 8 "related" Json.asBool? false
  let isConstructor ← fields.get? 9 "constructor" Json.asBool? false
  let isDestructor ← fields.get? 10 "destructor" Json.asBool? false
  let isDocumented ← fields.get? 11 "documented" Json.asBool? false
  let isHidden ← fields.get? 12 "hidden" Json.asBool? false
  let file ← fields.get? 13 "file" Json.asOptionalText? none
  let line ← fields.get? 14 "line" (Json.asNat? 0x100000000) 0
  return {
    name := name, kind, protection, virtualness, typeText, args, isStatic, isFriend, isRelated
    isConstructor, isDestructor, isDocumented, isHidden, file, line }

/-- Reads the declaration of an entity. -/
def EntityDecl.ofJson? (v : Json) : Option EntityDecl := do
  let fields ← Json.Fields.ofJson? 17 v
  let name ← fields.get? 0 "name" Json.asText? ""
  let kind ← fields.get? 1 "kind" Json.asText? ""
  let file ← fields.get? 2 "file" Json.asText? ""
  let line ← fields.get? 3 "line" (Json.asNat? 0x100000000) 0
  let column ← fields.get? 4 "column" (Json.asNat? 0x10000) 0
  let language ← fields.get? 5 "language" Json.asOptionalText? none
  let protection ← fields.get? 6 "protection" Json.asOptionalText? none
  let isDocumented ← fields.get? 7 "documented" Json.asBool? false
  let isHidden ← fields.get? 8 "hidden" Json.asBool? false
  let isStatic ← fields.get? 9 "is_static" Json.asBool? false
  let traits ← fields.get? 10 "traits" (Json.asList? Json.asText?) []
  let formals ← fields.get? 11 "template_params" (Json.asList? Json.asText?) []
  let bases ← fields.get? 12 "bases" (Json.asList? BaseDecl.ofJson?) []
  let usingNamespaces ← fields.get? 13 "using_namespaces" (Json.asList? Json.asText?) []
  let usingDeclarations ← fields.get? 14 "using_declarations" (Json.asList? Json.asText?) []
  let isInline ← fields.get? 15 "inline" Json.asBool? false
  let members ← fields.get? 16 "members" (Json.asList? MemberDecl.ofJson?) []
  return {
    name := name, kind, file, line, column, language, protection, isDocumented, isHidden, isStatic
    traits, formals, bases, usingNamespaces, usingDeclarations, isInline, members }

/-- Reads a batch of declarations. -/
def Document.ofJson? (v : Json) : Option Document := do
  let fields ← Json.Fields.ofJson? 1 v
  let entities ← fields.get? 0 "entities" (Json.asList? EntityDecl.ofJson?) []
  return { entities := entities }

/-- Reads a batch of declarations from the text of a file. -/
def Document.read? (text : String) : Option Document :=
  (Json.read? text).bind ofJson?

end SymbolAtlas
