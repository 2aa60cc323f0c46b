import SymbolAtlas.Text.Blank
import SymbolAtlas.Text.Search

/-!
# Qualified names

A qualified name is a sequence of scopes and a local name, separated by two colons. Separators
inside template angle brackets belong to the part they stand in.
-/

set_option autoImplicit false

namespace SymbolAtlas.QualifiedName

/-- What a character adds to the depth of template angle brackets. -/
def angleStep (c : Char) : Int :=
  if c == '<' then 1 else if c == '>' then -1 else 0

/-- What stands before and after the last separator on level zero of a text that begins at nesting
level `level`. -/
def cutFrom (level : Int) : List Char → Option (List Char × List Char)
  | [] => none
  | ':' :: ':' :: rest =>
    match cutFrom level rest with
    | some (scope, name) => some (':' :: ':' :: scope, name)
    | none => if level == 0 then some ([], rest) else none
  | c :: rest => (cutFrom (level + angleStep c) rest).map fun (scope, name) => (c :: scope, name)

/-- The enclosing scope and the local name, if the name has a scope. -/
def cutScope (name : String) : Option (String × String) :=
  (cutFrom 0 name.toList).map fun (scope, name) => (String.ofList scope, String.ofList name)

/-- The last part of a qualified name. -/
def localName (name : String) : String :=
  match cutScope name with
  | some (_, tail) => tail
  | none => name

/-- The enclosing scope of a qualified name, if any. -/
def scope? (name : String) : Option String :=
  (cutScope name).map (·.1)

/-- The name of a part inside a scope. -/
def inScope (scope name : String) : String :=
  scope ++ "::" ++ name

theorem cutFrom_eq_some {level : Int} {cs scope tail : List Char}
    (h : cutFrom level cs = some (scope, tail)) :
    cs = scope ++ ':' :: ':' :: tail ∧ cutFrom 0 tail = none := by
  fun_induction cutFrom level cs generalizing scope tail with
  | case1 => cases h
  | case2 level rest scope' tail' hrest ih =>
    cases h
    exact ⟨congrArg (':' :: ':' :: ·) (ih hrest).1, (ih hrest).2⟩
  | case3 level rest hrest hlevel =>
    cases h
    exact ⟨rfl, beq_iff_eq.mp hlevel ▸ hrest⟩
  | case4 => cases h
  | case5 level c rest _ ih =>
    obtain ⟨⟨scope', tail'⟩, hrest, heq⟩ := Option.map_eq_some_iff.mp h
    cases heq
    exact ⟨congrArg (c :: ·) (ih hrest).1, (ih hrest).2⟩

theorem length_of_cutFrom {level : Int} {cs scope name : List Char}
    (h : cutFrom level cs = some (scope, name)) :
    scope.length + 2 + name.length = cs.length := by
  rw [(cutFrom_eq_some h).1, List.length_append, List.length_cons, List.length_cons]
  omega

/-- The scopes around a name, innermost first. -/
def enclosingFrom (cs : List Char) : List (List Char) :=
  match h : cutFrom 0 cs with
  | none => []
  | some (scope, _) =>
    have := length_of_cutFrom h
    scope :: enclosingFrom scope
termination_by cs.length

/-- The scopes around a qualified name, innermost first. -/
def enclosing (name : String) : List String :=
  (enclosingFrom name.toList).map String.ofList

/-- Unnamed scopes are given names that begin with an at-sign. -/
def isAnonymous (name : String) : Bool :=
  name == "" || ['@'].isPrefixOf name.toList || Text.occursIn [':', ':', '@'] name.toList

/-- A name without the template arguments that end it, and these arguments. -/
def cutTemplateArguments (name : String) : String × String :=
  let text := Text.trim name.toList
  match Text.cut ['<'] text with
  | some (base, after) =>
    if text.getLast? == some '>' then
      (String.ofList (Text.trimEnd base), String.ofList ('<' :: after))
    else (String.ofList text, "")
  | none => (String.ofList text, "")

end SymbolAtlas.QualifiedName
