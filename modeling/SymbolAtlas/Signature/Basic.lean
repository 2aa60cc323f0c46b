import SymbolAtlas.Signature.Argument

/-!
# Signatures

Argument lists of functions with the qualifiers that follow them, and lists of template arguments.
-/

set_option autoImplicit false

namespace SymbolAtlas

/-- An argument list with its trailing qualifiers. -/
structure Signature where
  arguments : List Argument := []
  isConst : Bool := false
  isVolatile : Bool := false
  /-- Declared without an implementation. -/
  isPure : Bool := false
deriving DecidableEq, Repr, Inhabited

namespace Signature

/-- The non-empty parts of a text between commas. -/
def trimmedParts (inner : List Char) : List (List Char) :=
  ((Text.splitTopLevel ',' inner).map Text.trim).filter fun part => !part.isEmpty

/-- The parts of an argument list; a lone `void` stands for no parts. -/
def argumentParts (inner : List Char) : List (List Char) :=
  let parts := trimmedParts inner
  if parts == ["void".toList] then [] else parts

/-- What is read of a text, blanks at its ends included. -/
def ofText (text : List Char) : Signature :=
  match Text.cut ['('] text with
  | none => {}
  | some (_, afterOpen) =>
    let (inner, trailing) := Text.cutAtClose afterOpen
    let trailing := Text.normalize trailing
    let qualifiers := (Text.runs Text.isWordChar trailing).map String.ofList
    { arguments := (argumentParts inner).map Argument.read
      isConst := qualifiers.contains "const"
      isVolatile := qualifiers.contains "volatile"
      isPure := ['=', '0'].isSuffixOf (trailing.filter fun c => c != ' ') }

/-- Reads an argument list, such as `(const T &a, int b = 0) const`. Text without parentheses is an
empty list. -/
def read (text : String) : Signature :=
  ofText (Text.trim text.toList)

/-- Reads template arguments, such as `<int, std::vector<T> >`. Each keeps its whole text as its
type. -/
def readTemplateArguments (spec : String) : Signature :=
  let spec := Text.trim spec.toList
  let inner :=
    match Text.cut ['<'] spec with
    | some (_, afterOpen) => (Text.cutAtClose afterOpen).1
    | none => spec
  { arguments := (argumentParts inner).map fun part =>
      { typeText := String.ofList (Text.normalize part) } }

/-- Whether two signatures declare the same function: they have as many arguments of pairwise equal
types, and the same qualifiers. Names and default values do not count. -/
def isCompatible (a b : Signature) : Bool :=
  a.arguments.map Argument.comparedType == b.arguments.map Argument.comparedType
    && a.isConst == b.isConst && a.isVolatile == b.isVolatile

/-- The argument list as it is shown. -/
def text (s : Signature) : String :=
  "(" ++ Text.joinWith ", " (s.arguments.map Argument.text) ++ ")"
    ++ (if s.isConst then " const" else "")
    ++ (if s.isVolatile then " volatile" else "")
    ++ (if s.isPure then "=0" else "")

end Signature

end SymbolAtlas
