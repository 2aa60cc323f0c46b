import Mathlib.Data.List.Basic
import SymbolAtlas.Proofs.Text.Respacing
import SymbolAtlas.Signature.Substitution

/-!
# Identifiers under substitution

A text is a sequence of identifiers with other characters between them. Replacing identifiers keeps
the other ones apart: what is put in is closed off by a blank, and tidying takes blanks away only
next to characters that end an identifier anyway. So the identifiers of the result are those of the
images, one image after the other, and nothing is replaced twice.
-/

set_option autoImplicit false

namespace SymbolAtlas.Substitution

variable {c : Char} {f : List Char → List Char} (formals actuals : List Argument)
variable (expand : String → Option String)

/-- The identifiers of a text from left to right, each of them as long as it goes. -/
def identifiers : List Char → List (List Char)
  | [] => []
  | c :: rest =>
    if beginsIdentifier c then
      (c :: rest.takeWhile continuesIdentifier) :: identifiers (rest.dropWhile continuesIdentifier)
    else identifiers rest
termination_by cs => cs.length
decreasing_by
  · exact Nat.lt_succ_of_le ((List.dropWhile_suffix _).length_le)
  · exact Nat.lt_succ_self _

/-- The text with something in the place of each identifier. -/
def mapIdentifiers (f : List Char → List Char) : List Char → List Char
  | [] => []
  | c :: rest =>
    if beginsIdentifier c then
      f (c :: rest.takeWhile continuesIdentifier)
        ++ mapIdentifiers f (rest.dropWhile continuesIdentifier)
    else c :: mapIdentifiers f rest
termination_by cs => cs.length
decreasing_by
  · exact Nat.lt_succ_of_le ((List.dropWhile_suffix _).length_le)
  · exact Nat.lt_succ_self _

/-- The text of an actual argument: its type, and its name if it has one. -/
def actualText (a : Argument) : String :=
  if a.name = "" then a.typeText else a.typeText ++ " " ++ a.name

/-- What stands for an identifier: the actual argument in the position of the first formal one with
that name. The identifier stands for itself where there is none, and where the actual argument has
no type, is the identifier, or is a name inside of it. -/
def image (formals actuals : List Argument) (x : List Char) : List Char :=
  match (formals.findIdx? fun formal => formal.name.toList == x).bind (actuals[·]?) with
  | none => x
  | some actual =>
    let type := actual.typeText.toList
    if type = [] ∨ type = x ∨ x ++ [':', ':'] <+: type then x else (actualText actual).toList

/-! ## Characters -/

theorem beginsIdentifier_eq_false (h : continuesIdentifier c = false) :
    beginsIdentifier c = false := by
  unfold continuesIdentifier Char.isAlphanum at h
  unfold beginsIdentifier
  simp only [Bool.or_eq_false_iff] at h ⊢
  exact ⟨h.1.1.1, h.1.2⟩

theorem continuesIdentifier_of_begins (h : beginsIdentifier c = true) :
    continuesIdentifier c = true := by
  by_contra hc
  rw [beginsIdentifier_eq_false (by simpa using hc)] at h
  cases h

theorem continuesIdentifier_of_isBlank (h : Text.isBlank c = true) :
    continuesIdentifier c = false := by
  unfold Text.isBlank at h
  unfold continuesIdentifier Char.isAlphanum Char.isAlpha Char.isUpper Char.isLower Char.isDigit
  simp [UInt32.le_iff_toNat_le, ← Char.toNat_val, Char.ext_iff, UInt32.ext_iff] at h ⊢
  omega

/-! ## Where an identifier ends -/

section Runs

variable {p : Char → Bool} {c : Char}

theorem takeWhile_append_cons (hc : p c = false) (x y : List Char) :
    (x ++ c :: y).takeWhile p = x.takeWhile p := by
  induction x with
  | nil => simp [hc]
  | cons d x ih => by_cases hd : p d = true <;> simp [hd, ih]

theorem dropWhile_append_cons (hc : p c = false) (x y : List Char) :
    (x ++ c :: y).dropWhile p = x.dropWhile p ++ c :: y := by
  induction x with
  | nil => simp [hc]
  | cons d x ih => by_cases hd : p d = true <;> simp [hd, ih]

end Runs

section Ends

variable {c : Char} (hc : continuesIdentifier c = false)

include hc

variable (f : List Char → List Char) (x y : List Char)

theorem identifiers_cons_of_ends : identifiers (c :: y) = identifiers y := by
  rw [identifiers, if_neg (by simp [beginsIdentifier_eq_false hc])]

theorem mapIdentifiers_cons_of_ends : mapIdentifiers f (c :: y) = c :: mapIdentifiers f y := by
  rw [mapIdentifiers, if_neg (by simp [beginsIdentifier_eq_false hc])]

theorem identifiers_append_cons : identifiers (x ++ c :: y) = identifiers x ++ identifiers y := by
  fun_induction identifiers x with
  | case1 => exact identifiers_cons_of_ends hc y
  | case2 d x hd ih =>
    rw [List.cons_append, identifiers, if_pos hd, takeWhile_append_cons hc,
      dropWhile_append_cons hc, ih]
    rfl
  | case3 d x hd ih =>
    rw [List.cons_append, identifiers, if_neg hd, ih]

theorem mapIdentifiers_append_cons :
    mapIdentifiers f (x ++ c :: y) = mapIdentifiers f x ++ c :: mapIdentifiers f y := by
  fun_induction mapIdentifiers f x with
  | case1 => exact mapIdentifiers_cons_of_ends hc f y
  | case2 d x hd ih =>
    rw [List.cons_append, mapIdentifiers, if_pos hd, takeWhile_append_cons hc,
      dropWhile_append_cons hc, ih, List.append_assoc]
  | case3 d x hd ih =>
    rw [List.cons_append, mapIdentifiers, if_neg hd, ih, List.cons_append]

end Ends

theorem identifiers_cons_append {word rest : List Char} (hc : beginsIdentifier c = true)
    (hword : ∀ d ∈ word, continuesIdentifier d = true)
    (hrest : ∀ d ∈ rest.head?, continuesIdentifier d = false) :
    identifiers (c :: word ++ rest) = (c :: word) :: identifiers rest := by
  obtain ⟨htake, hdrop⟩ := Text.span_append hword hrest
  rw [List.cons_append, identifiers, if_pos hc, htake, hdrop]

theorem identifiers_identifier {word : List Char} (hc : beginsIdentifier c = true)
    (hword : ∀ d ∈ word, continuesIdentifier d = true) : identifiers (c :: word) = [c :: word] := by
  have hself : identifiers (c :: word ++ []) = (c :: word) :: identifiers [] :=
    identifiers_cons_append hc hword (by simp)
  rwa [List.append_nil, identifiers] at hself

/-! ## Replacing -/

/-- Nothing is joined to the identifiers before and behind. -/
def ClosesOff (f : List Char → List Char) : Prop :=
  ∀ x, f x = x ∨ ∃ y, f x = y ++ [' ']

theorem continuesIdentifier_blank : continuesIdentifier ' ' = false := by
  decide

theorem head?_dropWhile_continues (rest : List Char) :
    ∀ d ∈ (rest.dropWhile continuesIdentifier).head?, continuesIdentifier d = false := by
  intro d hd
  have hnot := List.head?_dropWhile_not continuesIdentifier rest
  rw [Option.mem_def.mp hd] at hnot
  simpa using hnot

/-- The identifiers after a replacement are those of the images. -/
theorem identifiers_mapIdentifiers (hf : ClosesOff f) (cs : List Char) :
    identifiers (mapIdentifiers f cs) = (identifiers cs).flatMap fun x => identifiers (f x) := by
  fun_induction identifiers cs with
  | case1 =>
    rw [mapIdentifiers, identifiers]
    rfl
  | case2 c rest hc ih =>
    rw [mapIdentifiers, if_pos hc, List.flatMap_cons, ← ih]
    generalize hx : c :: rest.takeWhile continuesIdentifier = x
    rcases hf x with heq | ⟨y, heq⟩
    · -- The identifier stays, and so does the character that ends it.
      have hword : ∀ d ∈ rest.takeWhile continuesIdentifier, continuesIdentifier d = true :=
        List.all_eq_true.mp List.all_takeWhile
      have hnext : ∀ d ∈ (mapIdentifiers f (rest.dropWhile continuesIdentifier)).head?,
          continuesIdentifier d = false := by
        have hends := head?_dropWhile_continues rest
        generalize rest.dropWhile continuesIdentifier = next at hends
        cases next with
        | nil => simp [mapIdentifiers]
        | cons d next =>
          rw [mapIdentifiers_cons_of_ends (hends d rfl)]
          simpa using hends d rfl
      rw [heq, ← hx, identifiers_cons_append hc hword hnext, identifiers_identifier hc hword,
        List.singleton_append]
    · rw [heq, List.append_assoc, List.singleton_append,
        identifiers_append_cons continuesIdentifier_blank,
        identifiers_append_cons continuesIdentifier_blank, identifiers, List.append_nil]
  | case3 c rest hc ih =>
    rw [mapIdentifiers, if_neg hc, identifiers, if_neg hc, ih]

/-- What a piece of a text stands for. -/
def Piece.put (f : List Char → List Char) : Piece → List Char
  | .identifier x => f x
  | .other c => [c]

theorem flatMap_put_piecesFrom (f : List Char → List Char) (word cs : List Char) :
    (piecesFrom word cs).flatMap (Piece.put f)
      = if word = [] then mapIdentifiers f cs
        else f (word ++ cs.takeWhile continuesIdentifier)
          ++ mapIdentifiers f (cs.dropWhile continuesIdentifier) := by
  induction cs generalizing word with
  | nil =>
    rw [piecesFrom]
    cases word <;> simp [mapIdentifiers, Piece.put]
  | cons c rest ih =>
    cases word with
    | nil =>
      rw [piecesFrom, if_pos List.isEmpty_nil, if_pos rfl, mapIdentifiers]
      split
      · rw [ih, if_neg (by simp), List.singleton_append]
      · rw [List.flatMap_cons, ih, if_pos rfl, Piece.put, List.singleton_append]
    | cons d word =>
      rw [piecesFrom, if_neg (by simp), if_neg (List.cons_ne_nil d word)]
      cases hc : continuesIdentifier c with
      | true => simp [ih, hc]
      | false =>
        rw [if_neg Bool.false_ne_true, List.flatMap_cons, List.flatMap_cons, ih, if_pos rfl,
          List.takeWhile_cons_of_neg (by simp [hc]), List.dropWhile_cons_of_neg (by simp [hc]),
          mapIdentifiers_cons_of_ends hc, List.append_nil, Piece.put, Piece.put,
          List.singleton_append]

theorem flatMap_put_pieces (f : List Char → List Char) (cs : List Char) :
    (pieces cs).flatMap (Piece.put f) = mapIdentifiers f cs := by
  rw [pieces, flatMap_put_piecesFrom, if_pos rfl]

/-! ## Spacing -/

/-- Blanks are free only where no identifier goes on. -/
def KeepsApart (free : Option Char → Char → Bool) : Prop :=
  ∀ last c, free last c = true →
    last.all (!continuesIdentifier ·) = true ∨ continuesIdentifier c = false

theorem keepsApart_tidyDrops : KeepsApart Text.tidyDrops := by
  intro last c h
  unfold Text.tidyDrops at h
  cases last with
  | none => exact .inl rfl
  | some d =>
    simp only [Option.all_some, Bool.or_eq_true, beq_iff_eq, or_assoc] at h
    rcases h with rfl | rfl | rfl | rfl | rfl | rfl | rfl
    all_goals first | exact .inl (by decide) | exact .inr (by decide)

theorem identifiers_append_of_ends {x : List Char}
    (hx : x.getLast?.all (!continuesIdentifier ·) = true) (y : List Char) :
    identifiers (x ++ y) = identifiers x ++ identifiers y := by
  rcases List.eq_nil_or_concat x with rfl | ⟨x, d, rfl⟩
  · rw [identifiers]
    rfl
  · have hd : continuesIdentifier d = false := by simpa using hx
    rw [List.concat_eq_append, List.append_assoc, List.singleton_append, identifiers_append_cons hd,
      identifiers_append_cons hd, identifiers, List.append_nil]

/-- What an identifier does not go across: the end of the first text, a blank behind it, or the
beginning of the second one. -/
theorem identifiers_append_gap {x y : List Char} (gap : Bool)
    (h : x.getLast?.all (!continuesIdentifier ·) = true ∨
      y.head?.all (!continuesIdentifier ·) = true) :
    identifiers (x ++ (if gap then [' '] else []) ++ y) = identifiers x ++ identifiers y := by
  cases gap with
  | true =>
    rw [if_pos rfl, List.append_assoc, List.singleton_append,
      identifiers_append_cons continuesIdentifier_blank]
  | false =>
    rw [if_neg Bool.false_ne_true, List.append_nil]
    rcases h with hx | hy
    · exact identifiers_append_of_ends hx y
    · cases y with
      | nil => rw [List.append_nil, identifiers, List.append_nil]
      | cons c y =>
        have hc : continuesIdentifier c = false := by simpa using hy
        rw [identifiers_append_cons hc, identifiers_cons_of_ends hc]

/-- Identifiers do not depend on blanks that are free. `pre` is what has been passed, so that the
texts may begin in the middle of an identifier. -/
theorem identifiers_append_of_respaced {free : Option Char → Char → Bool} (hfree : KeepsApart free)
    {last : Option Char} {gap gap' : Bool} {x y : List Char}
    (h : Text.Respaced free last gap gap' x y) (pre : List Char) (hpre : pre.getLast? = last) :
    identifiers (pre ++ (if gap then [' '] else []) ++ x)
      = identifiers (pre ++ (if gap' then [' '] else []) ++ y) := by
  have hblank {b : Char} (hb : Text.isBlank b = true) (gap : Bool) (pre z : List Char) :
      identifiers (pre ++ (if gap then [' '] else []) ++ b :: z)
        = identifiers (pre ++ (if true then [' '] else []) ++ z) := by
    have hends := continuesIdentifier_of_isBlank hb
    rw [identifiers_append_gap gap (.inr (by simp [hends])), identifiers_cons_of_ends hends,
      if_pos rfl, List.append_assoc, List.singleton_append,
      identifiers_append_cons continuesIdentifier_blank]
  induction h generalizing pre with
  | nil last gap gap' =>
    rw [identifiers_append_gap gap (.inr rfl), identifiers_append_gap gap' (.inr rfl)]
  | blankLeft hb _ ih => rw [hblank hb, ih pre hpre]
  | blankRight hb _ ih => rw [hblank hb, ih pre hpre]
  | @char last gap gap' c x y hc hgap h ih =>
    rcases hgap with rfl | hfree'
    · simpa using ih (pre ++ (if gap then [' '] else []) ++ [c]) (by simp)
    · have hsplit (z : List Char) : pre.getLast?.all (!continuesIdentifier ·) = true ∨
          (c :: z).head?.all (!continuesIdentifier ·) = true := by
        rw [hpre]
        simpa using hfree last c hfree'
      rw [identifiers_append_gap gap (hsplit x), identifiers_append_gap gap' (hsplit y)]
      simpa using ih [c] rfl

theorem identifiers_tidy (cs : List Char) : identifiers (Text.tidy cs) = identifiers cs := by
  have h := identifiers_append_of_respaced keepsApart_tidyDrops (Text.respaced_tidy cs) [] rfl
  simpa using h.symm

/-! ## Formal and actual parameters -/

/-- What is written in the place of an identifier: its replacement and a blank, if it has one. -/
def written (formals actuals : List Argument) (expand : String → Option String) (whole : String)
    (x : List Char) : List Char :=
  match replacement? formals actuals expand whole (String.ofList x) with
  | some new => new.toList ++ [' ']
  | none => x

theorem closesOff_written (whole : String) : ClosesOff (written formals actuals expand whole) := by
  intro x
  unfold written
  split
  · next new _ => exact .inr ⟨new.toList, rfl⟩
  · exact .inl rfl

theorem toList_rewriteWith (whole : String) : (rewriteWith formals actuals expand whole).toList
      = if formals = [] then whole.toList
        else Text.tidy (mapIdentifiers (written formals actuals expand whole) whole.toList) := by
  unfold rewriteWith
  cases formals with
  | nil => rfl
  | cons formal formals =>
    rw [if_neg (by simp), String.toList_ofList, ← flatMap_put_pieces]
    congr 2
    funext piece
    cases piece <;> rfl

theorem growsFrom_ofList (actual : String) (x : List Char) :
    growsFrom actual (String.ofList x) = true
      ↔ actual.toList = x ∨ x ++ [':', ':'] <+: actual.toList := by
  unfold growsFrom
  rw [Bool.or_eq_true, beq_iff_eq, List.isPrefixOf_iff_prefix, String.toList_append,
    ← String.toList_inj, String.toList_ofList]
  rfl

/-- What is written for an identifier is its image, perhaps with a blank. -/
theorem written_eq {formals actuals : List Argument} (h : formals.length ≤ actuals.length)
    (expand : String → Option String) (whole : String) (x : List Char) :
    written formals actuals expand whole x = image formals actuals x ∨
      written formals actuals expand whole x = image formals actuals x ++ [' '] := by
  have hname (s : String) : (s == String.ofList x) = (s.toList == x) := by
    rw [Bool.eq_iff_iff, beq_iff_eq, beq_iff_eq, ← String.toList_inj, String.toList_ofList]
  unfold written replacement? image
  simp only [hname]
  cases hindex : formals.findIdx? fun formal => formal.name.toList == x with
  | none => exact .inl rfl
  | some index =>
    have hlt : index < actuals.length :=
      Nat.lt_of_lt_of_le (List.findIdx?_eq_some_iff_findIdx_eq.mp hindex).1 h
    obtain ⟨actual, hactual⟩ : ∃ actual, actuals[index]? = some actual :=
      ⟨_, List.getElem?_eq_getElem hlt⟩
    have hstays : (actual.typeText == "" || growsFrom actual.typeText (String.ofList x)) = true
        ↔ actual.typeText.toList = [] ∨ actual.typeText.toList = x ∨
          x ++ [':', ':'] <+: actual.typeText.toList := by
      rw [Bool.or_eq_true, growsFrom_ofList, beq_iff_eq, String.toList_eq_nil_iff]
    by_cases hstay : (actual.typeText == "" || growsFrom actual.typeText (String.ofList x)) = true
    · simp only [Option.bind_some, hactual, if_pos hstay, if_pos (hstays.mp hstay), true_or]
    · simp only [Option.bind_some, hactual, if_neg hstay, if_neg (mt hstays.mpr hstay), actualText,
        beq_iff_eq]
      by_cases hunnamed : actual.name = ""
      · simp only [if_pos hunnamed, or_true]
      · simp only [if_neg hunnamed, or_true]

/-! ## Substitution -/

theorem withoutBlanks_mapIdentifiers {g : List Char → List Char}
    (h : ∀ x, Text.withoutBlanks (f x) = Text.withoutBlanks (g x)) (cs : List Char) :
    Text.withoutBlanks (mapIdentifiers f cs) = Text.withoutBlanks (mapIdentifiers g cs) := by
  fun_induction mapIdentifiers f cs with
  | case1 => rw [mapIdentifiers]
  | case2 c rest hc ih =>
    rw [mapIdentifiers, if_pos hc, Text.withoutBlanks_append, Text.withoutBlanks_append, h, ih]
  | case3 c rest hc ih =>
    rw [mapIdentifiers, if_neg hc, ← List.singleton_append, Text.withoutBlanks_append, ih,
      ← Text.withoutBlanks_append, List.singleton_append]

theorem identifiers_append_blank (x : List Char) : identifiers (x ++ [' ']) = identifiers x := by
  rw [identifiers_append_cons continuesIdentifier_blank, identifiers, List.append_nil]

theorem withoutBlanks_append_blank (x : List Char) :
    Text.withoutBlanks (x ++ [' ']) = Text.withoutBlanks x := by
  rw [Text.withoutBlanks_append]
  exact List.append_nil _

theorem mapIdentifiers_eq_self (hf : ∀ x, f x = x) (cs : List Char) : mapIdentifiers f cs = cs := by
  fun_induction mapIdentifiers f cs with
  | case1 => rfl
  | case2 c rest hc ih => rw [hf, ih, List.cons_append, List.takeWhile_append_dropWhile]
  | case3 c rest hc ih => rw [ih]

/-- Replacing the formal parameters is simultaneous and keeps the identifiers of a text apart: the
result has the identifiers of the images, image by image, and apart from blanks it is the text with
each identifier replaced by its image. -/
theorem identifiers_substitute (text : String) (formals actuals : List Argument)
    (h : formals.length ≤ actuals.length) :
    identifiers (substitute text formals actuals).toList
        = (identifiers text.toList).flatMap (fun x => identifiers (image formals actuals x)) ∧
      Text.withoutBlanks (substitute text formals actuals).toList
        = Text.withoutBlanks (mapIdentifiers (image formals actuals) text.toList) := by
  obtain ⟨expand, hexpand⟩ : ∃ expand, substitute text formals actuals
      = rewriteWith formals actuals expand text := by
    unfold substitute
    cases formals.length <;> exact ⟨_, rfl⟩
  rw [hexpand, toList_rewriteWith]
  split
  · next hnone =>
    have himage (x : List Char) : image formals actuals x = x := by
      rw [hnone]
      rfl
    have hself := mapIdentifiers_eq_self himage text.toList
    refine ⟨?_, by rw [hself]⟩
    rw [← identifiers_mapIdentifiers (fun x => .inl (himage x)), hself]
  · have hwritten := written_eq h expand text
    constructor
    · rw [identifiers_tidy, identifiers_mapIdentifiers (closesOff_written _ _ _ _)]
      congr 1
      funext x
      rcases hwritten x with heq | heq
      · rw [heq]
      · rw [heq, identifiers_append_blank]
    · rw [← (Text.respaced_tidy _).withoutBlanks_eq]
      refine withoutBlanks_mapIdentifiers (fun x => ?_) text.toList
      rcases hwritten x with heq | heq
      · rw [heq]
      · rw [heq, withoutBlanks_append_blank]

/-- Two parameters that are swapped: neither actual argument is replaced again. -/
theorem identifiers_substitute_swapped :
    let formals : List Argument := [
      { typeText := "class", name := "T" }, { typeText := "class", name := "U" }]
    let actuals : List Argument := [{ typeText := "U" }, { typeText := "T" }]
    let text := "T (U::T, T<U>)"
    formals.length ≤ actuals.length ∧ substitute text formals actuals = "U (U::T, U <T>)" ∧
      identifiers (substitute text formals actuals).toList
          = (identifiers text.toList).flatMap (fun x => identifiers (image formals actuals x)) ∧
        Text.withoutBlanks (substitute text formals actuals).toList
          = Text.withoutBlanks (mapIdentifiers (image formals actuals) text.toList) := by
  refine ⟨by decide, by decide +kernel, ?_⟩
  exact identifiers_substitute _ _ _ (by decide)

end SymbolAtlas.Substitution
