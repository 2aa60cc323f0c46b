/-!
# Searching in text

Cutting a text at a pattern, and what follows from it: containment, splitting, replacing.
-/

set_option autoImplicit false

namespace SymbolAtlas.Text

/-- What stands before and after the first occurrence of `pat`. -/
def cut (pat : List Char) : List Char → Option (List Char × List Char)
  | [] => if pat.isEmpty then some ([], []) else none
  | c :: rest =>
    if pat.isPrefixOf (c :: rest) then some ([], (c :: rest).drop pat.length)
    else (cut pat rest).map fun (before, after) => (c :: before, after)

/-- Whether `pat` occurs somewhere in the text. -/
def occursIn (pat cs : List Char) : Bool :=
  (cut pat cs).isSome

/-- What stands before and after the last occurrence of the character `sep`. -/
def cutLastChar (sep : Char) : List Char → Option (List Char × List Char)
  | [] => none
  | c :: rest =>
    match cutLastChar sep rest with
    | some (before, after) => some (c :: before, after)
    | none => if c == sep then some ([], rest) else none

theorem cut_eq_some {pat cs before after : List Char} (h : cut pat cs = some (before, after)) :
    cs = before ++ pat ++ after := by
  induction cs generalizing before after with
  | nil =>
    unfold cut at h
    split at h
    · next hempty =>
      obtain ⟨rfl, rfl⟩ : [] = before ∧ [] = after := by simpa using h
      simp [List.isEmpty_iff.mp hempty]
    · cases h
  | cons c cs ih =>
    unfold cut at h
    split at h
    · next hstarts =>
      obtain ⟨rest, hrest⟩ := List.isPrefixOf_iff_prefix.mp hstarts
      rw [← hrest] at h
      obtain ⟨rfl, rfl⟩ : [] = before ∧ rest = after := by simpa using h
      rw [List.nil_append, hrest]
    · obtain ⟨⟨before', after'⟩, hcut, heq⟩ := Option.map_eq_some_iff.mp h
      obtain ⟨rfl, rfl⟩ : c :: before' = before ∧ after' = after := by simpa using heq
      rw [ih hcut, List.cons_append, List.cons_append]

theorem length_of_cut {pat cs before after : List Char} (h : cut pat cs = some (before, after)) :
    cs.length = before.length + pat.length + after.length := by
  simp [cut_eq_some h, Nat.add_assoc]

set_option linter.unusedVariables false in
/-- The pieces of the text between the occurrences of `pat`, which is not empty. -/
def splitOn (pat cs : List Char) : List (List Char) :=
  if hp : pat.isEmpty then [cs]
  else
    match h : cut pat cs with
    | none => [cs]
    | some (before, after) => before :: splitOn pat after
termination_by cs.length
decreasing_by
  have := length_of_cut h
  have : 0 < pat.length := List.length_pos_iff.mpr (by simpa using hp)
  omega

/-- The text with every occurrence of `pat` replaced by `new`. -/
def replaceAll (pat new cs : List Char) : List Char :=
  List.intercalate new (splitOn pat cs)

/-- What the text holds after `start`, if it begins with it. -/
def after? (start cs : List Char) : Option (List Char) :=
  if start.isPrefixOf cs then some (cs.drop start.length) else none

/-- What the text holds before `tail`, if it ends with it. -/
def before? (tail cs : List Char) : Option (List Char) :=
  if tail.isSuffixOf cs then some (cs.take (cs.length - tail.length)) else none

/-- The pieces of a string between the occurrences of a character. -/
def splitAtChar (sep : Char) (cs : List Char) : List (List Char) :=
  splitOn [sep] cs

/-- The strings one after the other with `sep` between them. -/
def joinWith (sep : String) (parts : List String) : String :=
  String.intercalate sep parts

end SymbolAtlas.Text
