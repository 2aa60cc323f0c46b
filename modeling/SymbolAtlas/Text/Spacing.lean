import SymbolAtlas.Text.Blank
import SymbolAtlas.Text.WordChar

/-!
# Spacing of declarations

Declarations are compared and shown in a canonical spacing: a blank survives only between two word
characters, and every comma is followed by exactly one blank. `tidy` is a milder rule for text in
which blanks carry meaning to the reader: runs become one blank, and there is none just inside a
bracket or before a comma.
-/

set_option autoImplicit false

namespace SymbolAtlas.Text

/-- Canonical spacing of the rest of a text. `last` is the character written last, `gap` says
whether blanks have been passed over since. -/
def spaceFrom (last : Option Char) (gap : Bool) : List Char → List Char
  | [] => []
  | c :: rest =>
    if isBlank c then spaceFrom last true rest
    else
      let joint := if gap && last.any isWordChar && isWordChar c then [' '] else []
      if c == ',' then joint ++ c :: ' ' :: spaceFrom (some ' ') false rest
      else joint ++ c :: spaceFrom (some c) false rest

/-- The text without one blank at its end. -/
def dropFinalSpace (cs : List Char) : List Char :=
  if cs.getLast? == some ' ' then cs.dropLast else cs

/-- The canonical spacing of a text. -/
def normalize (cs : List Char) : List Char :=
  dropFinalSpace (spaceFrom none false cs)

/-- `normalize` on strings. -/
def normalized (s : String) : String :=
  String.ofList (normalize s.toList)

/-- Tidying of the rest of a trimmed text; `last` and `gap` are as in `spaceFrom`. -/
def tidyFrom (last : Option Char) (gap : Bool) : List Char → List Char
  | [] => []
  | c :: rest =>
    if isBlank c then tidyFrom last true rest
    else
      let inside := last.any fun d => d == '(' || d == '<' || d == '['
      let closes := c == ',' || c == ')' || c == '>' || c == ']'
      let joint := if gap && !closes && !inside then [' '] else []
      joint ++ c :: tidyFrom (some c) false rest

/-- The text with runs of blanks collapsed, and none just inside a bracket or before a comma. -/
def tidy (cs : List Char) : List Char :=
  tidyFrom none false (trim cs)

end SymbolAtlas.Text
