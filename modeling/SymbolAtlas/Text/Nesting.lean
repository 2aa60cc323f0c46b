/-!
# Bracket nesting

The four kinds of brackets count alike: an opening one goes a level deeper, a closing one a level
up. Malformed text may end below the level it began at, so levels are integers.
-/

set_option autoImplicit false

namespace SymbolAtlas.Text

/-- `<`, `(`, `[` and the opening brace. -/
def isOpening (c : Char) : Bool :=
  c == '<' || c == '(' || c == '[' || c == '\x7b'

/-- `>`, `)`, `]` and the closing brace. -/
def isClosing (c : Char) : Bool :=
  c == '>' || c == ')' || c == ']' || c == '\x7d'

/-- What a character adds to the nesting level. -/
def nestingStep (c : Char) : Int :=
  if isOpening c then 1 else if isClosing c then -1 else 0

/-- Puts a character in front of the first part. -/
def consFirst (c : Char) : List (List Char) → List (List Char)
  | [] => [[c]]
  | part :: parts => (c :: part) :: parts

/-- The parts of a text that begins at nesting level `level`, cut at every `sep` on level zero. -/
def splitFrom (sep : Char) (level : Int) : List Char → List (List Char)
  | [] => [[]]
  | c :: rest =>
    if nestingStep c == 0 && c == sep && level == 0 then [] :: splitFrom sep level rest
    else consFirst c (splitFrom sep (level + nestingStep c) rest)

/-- The parts of a text between the separators that stand outside all brackets. A bracket is never
a separator. -/
def splitTopLevel (sep : Char) (cs : List Char) : List (List Char) :=
  splitFrom sep 0 cs

/-- What stands before and after the bracket that closes the innermost `level + 1` open ones. -/
def closeFrom (level : Nat) : List Char → Option (List Char × List Char)
  | [] => none
  | c :: rest =>
    let next :=
      if isOpening c then some (level + 1)
      else if isClosing c then (if level = 0 then none else some (level - 1))
      else some level
    match next with
    | none => some ([], rest)
    | some level => (closeFrom level rest).map fun (inner, after) => (c :: inner, after)

/-- The text that follows an opening bracket, cut at the bracket that closes it; everything is
inside when there is none. -/
def cutAtClose (cs : List Char) : List Char × List Char :=
  (closeFrom 0 cs).getD (cs, [])

end SymbolAtlas.Text
