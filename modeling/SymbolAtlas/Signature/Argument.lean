import SymbolAtlas.Text.Nesting
import SymbolAtlas.Text.Search
import SymbolAtlas.Text.Spacing

/-!
# Arguments

An argument of a function or a template, read from its text. Reading is shallow: the text is cut
into type, name, array suffix and default value, and no type system stands behind it.
-/

set_option autoImplicit false

namespace SymbolAtlas

/-- One formal or actual argument. -/
structure Argument where
  /-- The type as written, in canonical spacing. -/
  typeText : String := ""
  name : String := ""
  /-- The array suffix, such as `[4]`. -/
  arraySuffix : String := ""
  defaultText : String := ""
deriving DecidableEq, Repr, Inhabited

namespace Argument

/-- Words that belong to the type even where a name could stand. -/
def typeWords : List String :=
  ["void", "bool", "char", "short", "int", "long", "float", "double", "signed", "unsigned",
    "const", "volatile", "auto", "wchar_t", "char16_t", "char32_t", "size_t"]

/-- Characters that make a comparison out of the equals sign that follows them. -/
def joinsEquals (c : Char) : Bool :=
  c == '=' || c == '<' || c == '>' || c == '!'

/-- What stands before and after the first equals sign on level zero that is not part of a
comparison, in a text that begins at nesting level `level` after the character `last`. -/
def cutDefaultFrom (level : Int) (last : Option Char) : List Char → Option (List Char × List Char)
  | [] => none
  | c :: rest =>
    if c == '=' && level == 0 && !last.any joinsEquals && rest.head? != some '=' then
      some ([], rest)
    else
      (cutDefaultFrom (level + Text.nestingStep c) (some c) rest).map
        fun (before, after) => (c :: before, after)

/-- A declaration and its default value, which is empty when none is given. -/
def cutDefault (cs : List Char) : List Char × List Char :=
  (cutDefaultFrom 0 none cs).getD (cs, [])

/-- A trimmed declaration and its array suffix: what follows the first square bracket, if the
declaration ends with one. -/
def cutArray (cs : List Char) : List Char × List Char :=
  if cs.getLast? == some ']' then
    match Text.cut ['['] cs with
    | some (before, after) => (Text.trimEnd before, '[' :: after)
    | none => (cs, [])
  else (cs, [])

/-- What stands before the word that ends a text, and that word. -/
def cutFinalWord (cs : List Char) : List Char × List Char :=
  ((cs.reverse.dropWhile Text.isWordChar).reverse, (cs.reverse.takeWhile Text.isWordChar).reverse)

/-- Whether a word that follows `before` is the name of an argument and not part of its type. -/
def isName (before word : List Char) : Bool :=
  !word.isEmpty && !before.isEmpty && before.getLast? != some ':'
    && !word.head?.any Char.isDigit && !typeWords.contains (String.ofList word)

/-- Type and name of a declaration without array suffix and default value. -/
def cutName (cs : List Char) : List Char × List Char :=
  let (before, word) := cutFinalWord cs
  let before := Text.trimEnd before
  if isName before word then (before, word) else (cs, [])

/-- What is read of a declaration and its default value. -/
def ofDeclaration (declaration value : List Char) : Argument :=
  let (declaration, array) := cutArray (Text.trim declaration)
  let (type, name) := cutName declaration
  { typeText := String.ofList (Text.normalize type)
    name := String.ofList name
    arraySuffix := String.ofList (Text.normalize array)
    defaultText := String.ofList (Text.normalize value) }

/-- Reads one declaration, such as `const T &value = T()`. -/
def read (text : List Char) : Argument :=
  ofDeclaration (cutDefault text).1 (cutDefault text).2

/-- Reads a formal template parameter; a bare word is the name of a type. -/
def readFormal (text : List Char) : Argument :=
  let argument := read text
  if argument.name == "" && !argument.typeText.toList.any Text.isBlank then
    { argument with name := argument.typeText, typeText := "class" }
  else argument

/-- Whether a formal parameter stands for a type rather than a value. -/
def isTypeFormal (a : Argument) : Bool :=
  a.typeText == "class" || a.typeText == "typename"
    || "template".toList.isPrefixOf a.typeText.toList

/-- The type by which signatures are compared, without the words that only say what sort of class
is meant. -/
def comparedType (a : Argument) : String :=
  let kept := (Text.words a.typeText.toList).filter fun word =>
    !(["class", "struct", "union"].contains (String.ofList word))
  String.ofList (Text.normalize (List.intercalate [' '] kept)) ++ a.arraySuffix

/-- The argument as it is shown. -/
def text (a : Argument) : String :=
  a.typeText
    ++ (if a.name == "" then "" else (if a.typeText == "" then "" else " ") ++ a.name)
    ++ a.arraySuffix
    ++ (if a.defaultText == "" then "" else " = " ++ a.defaultText)

end Argument

end SymbolAtlas
