import SymbolAtlas.Json.Token

/-!
# Reading JSON

Values are built from tokens one after the other. Arrays and objects that are still open are kept in
a list, the innermost one first, so that nesting may be as deep as the text.
-/

set_option autoImplicit false

namespace SymbolAtlas.Json

/-- An array or object that is still open, with what it holds so far in reverse. -/
inductive Frame where
  | array (items : List Json)
  /-- An object and the key whose value is being read. -/
  | object (fields : List (Option String × Json)) (key : Option String)
deriving Repr

/-- What may come next. -/
inductive Expecting where
  /-- A value; also the end of the innermost array if that is still empty. -/
  | value
  /-- The first key of an object, or its end. -/
  | firstKey
  /-- A further key of an object with the given fields. -/
  | key (fields : List (Option String × Json))
  /-- The colon after a key of an object with the given fields. -/
  | colon (fields : List (Option String × Json)) (key : Option String)
  /-- What follows a complete value: a comma, the end of what is open, or the end of the text. -/
  | next (value : Json)
deriving Repr

/-- Reads a value from tokens. -/
def ofTokens? : Expecting → List Frame → List Token → Option Json
  | .next value, [], [] => some value
  | _, _, [] => none
  | .value, frames, token :: rest =>
    match token, frames with
    | .null, _ => ofTokens? (.next .null) frames rest
    | .bool b, _ => ofTokens? (.next (.bool b)) frames rest
    | .number n, _ => ofTokens? (.next (.number n)) frames rest
    | .text literal, _ => ofTokens? (.next (.text literal)) frames rest
    | .openArray, _ => ofTokens? .value (.array [] :: frames) rest
    | .openObject, _ => ofTokens? .firstKey frames rest
    | .closeArray, .array [] :: outer => ofTokens? (.next (.array [])) outer rest
    | _, _ => none
  | .firstKey, frames, token :: rest =>
    match token with
    | .text key => ofTokens? (.colon [] key) frames rest
    | .closeObject => ofTokens? (.next (.object [])) frames rest
    | _ => none
  | .key fields, frames, token :: rest =>
    match token with
    | .text key => ofTokens? (.colon fields key) frames rest
    | _ => none
  | .colon fields key, frames, token :: rest =>
    match token with
    | .colon => ofTokens? .value (.object fields key :: frames) rest
    | _ => none
  | .next value, frames, token :: rest =>
    match token, frames with
    | .comma, .array items :: outer => ofTokens? .value (.array (value :: items) :: outer) rest
    | .closeArray, .array items :: outer =>
      ofTokens? (.next (.array (value :: items).reverse)) outer rest
    | .comma, .object fields key :: outer => ofTokens? (.key ((key, value) :: fields)) outer rest
    | .closeObject, .object fields key :: outer =>
      ofTokens? (.next (.object ((key, value) :: fields).reverse)) outer rest
    | _, _ => none

/-- Reads one value from the whole of a text. -/
def read? (text : String) : Option Json :=
  (tokens? text.toList).bind (ofTokens? .value [])

end SymbolAtlas.Json
