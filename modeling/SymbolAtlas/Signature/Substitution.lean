import SymbolAtlas.Signature.Basic

/-!
# Substitution of template parameters

Instances of a template are made by replacing the formal parameters in the text of a declaration.
An identifier may hold colons, so a parameter is not found inside a qualified name.
-/

set_option autoImplicit false

namespace SymbolAtlas

namespace Substitution

/-- A piece of a declaration: an identifier or a character outside of identifiers. -/
inductive Piece where
  | identifier (name : List Char)
  | other (c : Char)
deriving DecidableEq, Repr

/-- Characters that begin an identifier. -/
def beginsIdentifier (c : Char) : Bool :=
  c.isAlpha || c == '_'

/-- Characters that continue an identifier. -/
def continuesIdentifier (c : Char) : Bool :=
  c.isAlphanum || c == '_' || c == ':'

/-- The pieces of a text that follows the beginning `word` of an identifier; there is none when
`word` is empty. -/
def piecesFrom (word : List Char) : List Char → List Piece
  | [] => if word.isEmpty then [] else [.identifier word]
  | c :: rest =>
    if word.isEmpty then
      if beginsIdentifier c then piecesFrom [c] rest else .other c :: piecesFrom [] rest
    else if continuesIdentifier c then piecesFrom (word ++ [c]) rest
    else .identifier word :: .other c :: piecesFrom [] rest

/-- The pieces of a text. -/
def pieces (cs : List Char) : List Piece :=
  piecesFrom [] cs

/-- Whether an actual argument is the formal one or stands inside it, so that replacing the formal
would only make the name grow. -/
def growsFrom (actual formal : String) : Bool :=
  actual == formal || (formal ++ "::").toList.isPrefixOf actual.toList

/-- What an identifier is replaced by, if it names a formal parameter. The actual argument in the
same position wins; without one, `expand` is applied to the default value, unless that is the whole
text in question. -/
def replacement? (formals actuals : List Argument) (expand : String → Option String)
    (whole name : String) : Option String :=
  match formals.findIdx? fun formal => formal.name == name with
  | none => none
  | some index =>
    match actuals[index]? with
    | some actual =>
      if actual.typeText == "" || growsFrom actual.typeText name then none
      else if actual.name == "" then some actual.typeText
      else some (actual.typeText ++ " " ++ actual.name)
    | none =>
      match formals[index]? with
      | none => none
      | some formal =>
        if formal.defaultText == "" || formal.defaultText == whole then none
        else expand formal.defaultText

/-- The text with every identifier that names a formal parameter replaced. -/
def rewriteWith (formals actuals : List Argument) (expand : String → Option String)
    (whole : String) : String :=
  if formals.isEmpty then whole
  else
    let render : Piece → List Char := fun piece =>
      match piece with
      | .other c => [c]
      | .identifier name =>
        match replacement? formals actuals expand whole (String.ofList name) with
        | some new => new.toList ++ [' ']
        | none => name
    String.ofList (Text.tidy ((pieces whole.toList).flatMap render))

/-- Replacement in which default values are expanded at most `depth` levels deep. -/
def expandWithin (formals actuals : List Argument) : Nat → String → String
  | 0 => rewriteWith formals actuals fun _ => none
  | depth + 1 => rewriteWith formals actuals fun value =>
      some (expandWithin formals actuals depth value)

end Substitution

/-- The text with the formal template parameters replaced by the actual ones, and by their default
values where there are no actual ones. Default values may refer to other parameters; the expansion
is as deep as there are parameters. -/
def substitute (text : String) (formals actuals : List Argument) : String :=
  Substitution.expandWithin formals actuals formals.length text

end SymbolAtlas
