import SymbolAtlas.Proofs.Text.Endings
import SymbolAtlas.Proofs.Text.Passage
import SymbolAtlas.Signature.Basic

/-!
# Reading argument lists

How an argument list is read does not depend on the blanks that tidying takes away. Each cut is made
at the same character, with the same text before and behind it apart from such blanks, and what is
read in the end is put into canonical spacing.
-/

set_option autoImplicit false

namespace SymbolAtlas

/-! ## One argument -/

namespace Argument

open Text

section FinalWord

variable {x u w : List Char}

theorem cutFinalWord_append (x : List Char) : (cutFinalWord x).1 ++ (cutFinalWord x).2 = x := by
  unfold cutFinalWord
  rw [← List.reverse_append, List.takeWhile_append_dropWhile, List.reverse_reverse]

theorem isWordChar_of_mem_cutFinalWord {c : Char} (h : c ∈ (cutFinalWord x).2) :
    isWordChar c = true := by
  rw [cutFinalWord, List.mem_reverse] at h
  exact List.all_eq_true.mp List.all_takeWhile c h

theorem getLast?_cutFinalWord (x : List Char) :
    (cutFinalWord x).1.getLast?.any isWordChar = false := by
  unfold cutFinalWord
  rw [List.getLast?_reverse]
  exact head?_any_dropWhile isWordChar x.reverse

theorem cutFinalWord_eq (hw : ∀ c ∈ w, isWordChar c = true) (hu : u.getLast?.any isWordChar = false) :
    cutFinalWord (u ++ w) = (u, w) := by
  have hends : ∀ c ∈ u.reverse.head?, isWordChar c = false := by
    intro c hc
    rw [← List.head?_reverse, Option.mem_def.mp hc] at hu
    exact hu
  have hword : ∀ c ∈ w.reverse, isWordChar c = true := fun c hc => hw c (List.mem_reverse.mp hc)
  obtain ⟨htake, hdrop⟩ := span_append hword hends
  rw [cutFinalWord, List.reverse_append, htake, hdrop, List.reverse_reverse, List.reverse_reverse]

end FinalWord

section Alike

variable {x y : List Char}

section

variable (h : Alike normalizeDrops x y) (hx : EndsSolid x) (hy : EndsSolid y)

include h hx hy

theorem cutFinalWord_alike :
    (cutFinalWord y).2 = (cutFinalWord x).2 ∧
      Alike normalizeDrops (cutFinalWord x).1 (cutFinalWord y).1 := by
  have hcut := cutFinalWord_append x
  have hlast := getLast?_cutFinalWord x
  by_cases hw : (cutFinalWord x).2 = []
  · -- Neither text ends in a word.
    rw [hw, List.append_nil] at hcut
    rw [hcut] at hlast ⊢
    have hlast' : y.getLast?.any isWordChar = false := by
      rw [hy.getLast?_eq, ← h.withoutBlanks_eq, ← hx.getLast?_eq]
      exact hlast
    have hcut' : cutFinalWord (y ++ []) = (y, []) := cutFinalWord_eq nofun hlast'
    rw [List.append_nil] at hcut'
    rw [hw, hcut']
    exact ⟨rfl, h⟩
  · have hword : ∀ c ∈ (cutFinalWord x).2, isWordChar c = true := fun c =>
      isWordChar_of_mem_cutFinalWord
    obtain ⟨u', rfl, hu', hlast'⟩ :=
      h.exists_eq_append_word hword hw hcut.symm hy (by simpa using hlast)
    rw [cutFinalWord_eq hword (by simpa using hlast')]
    exact ⟨rfl, hu'⟩

theorem cutName_alike :
    (cutName y).2 = (cutName x).2 ∧ Alike normalizeDrops (cutName x).1 (cutName y).1 := by
  obtain ⟨hword, hbefore⟩ := cutFinalWord_alike h hx hy
  have hsame := hbefore.withoutBlanks_eq
  have hempty : (trimEnd (cutFinalWord y).1).isEmpty = (trimEnd (cutFinalWord x).1).isEmpty := by
    rw [Bool.eq_iff_iff, List.isEmpty_iff, List.isEmpty_iff, trimEnd_eq_nil_iff, trimEnd_eq_nil_iff,
      hsame]
  have hname : isName (trimEnd (cutFinalWord y).1) (cutFinalWord y).2
      = isName (trimEnd (cutFinalWord x).1) (cutFinalWord x).2 := by
    unfold isName
    rw [hword, hempty, getLast?_trimEnd, getLast?_trimEnd, hsame]
  unfold cutName
  dsimp only
  rw [hname]
  split
  · exact ⟨hword, hbefore.trimEnd⟩
  · exact ⟨rfl, h⟩

theorem cutArray_alike :
    Alike normalizeDrops (cutArray x).1 (cutArray y).1 ∧
      Alike normalizeDrops (cutArray x).2 (cutArray y).2 := by
  have hlast : y.getLast? = x.getLast? := by
    rw [hy.getLast?_eq, hx.getLast?_eq, h.withoutBlanks_eq]
  unfold cutArray
  rw [hlast]
  split
  · have hbracket : isBlank '[' = false := by decide
    rw [cut_eq_scan, cut_eq_scan]
    rcases (h.scan (passesBlanks_stopAt hbracket) ()).none_or_some with
      ⟨hcut, hcut'⟩ | ⟨cut, cut', hcut, hcut', hbefore, c, ⟨_, hstop⟩, hafter⟩
    · rw [hcut, hcut']
      exact ⟨h, .nil none false false⟩
    · obtain rfl := eq_of_stopAt hstop
      rw [hcut, hcut']
      exact ⟨hbefore.trimEnd, .char hbracket (.inl rfl) hafter⟩
  · exact ⟨h, .nil none false false⟩

end

/-! A default value is cut off at an equals sign that is not part of a comparison. So the blanks
next to it count; but tidying drops those only inside of brackets. -/

section Default

variable {level : Int} {last : Option Char} {c : Char} {rest : List Char}

/-- An equals sign that begins a default value. -/
def IsCut (level : Int) (last : Option Char) (c : Char) (rest : List Char) : Prop :=
  c = '=' ∧ level = 0 ∧ last.any joinsEquals = false ∧ rest.head? ≠ some '='

theorem cutDefaultFrom_cons_of_isCut (h : IsCut level last c rest) :
    cutDefaultFrom level last (c :: rest) = some ([], rest) := by
  obtain ⟨rfl, rfl, hlast, hrest⟩ := h
  rw [cutDefaultFrom]
  simp [hlast, hrest]

theorem cutDefaultFrom_cons_of_not (h : ¬ IsCut level last c rest) :
    cutDefaultFrom level last (c :: rest)
      = (cutDefaultFrom (level + nestingStep c) (some c) rest).map fun cut => (c :: cut.1, cut.2) := by
  rw [cutDefaultFrom, if_neg]
  intro hcut
  refine h ?_
  simpa [IsCut, and_assoc] using hcut

theorem cutDefaultFrom_eq_some {part declaration value : List Char}
    (h : cutDefaultFrom level last part = some (declaration, value)) :
    part = declaration ++ '=' :: value ∧ cutDefaultFrom level last declaration = none ∧
      levelAfter level declaration = 0 := by
  induction part generalizing level last declaration with
  | nil => cases h
  | cons c rest ih =>
    by_cases hcut : IsCut level last c rest
    · rw [cutDefaultFrom_cons_of_isCut hcut] at h
      cases h
      exact ⟨by rw [hcut.1]; rfl, rfl, hcut.2.1⟩
    · rw [cutDefaultFrom_cons_of_not hcut] at h
      obtain ⟨⟨before, after⟩, hrest, heq⟩ := Option.map_eq_some_iff.mp h
      cases heq
      obtain ⟨rfl, hnone, hlevel⟩ := ih hrest
      refine ⟨rfl, ?_, hlevel⟩
      have hcut' : ¬ IsCut level last c before := by
        rintro ⟨rfl, rfl, hlast, hhead⟩
        refine hcut ⟨rfl, rfl, hlast, ?_⟩
        cases before with
        | cons d before => exact hhead
        | nil =>
          -- The equals sign that was found does not follow another one.
          obtain ⟨_, _, heq⟩ := Option.map_eq_some_iff.mp hrest
          cases heq
      rw [cutDefaultFrom_cons_of_not hcut', hnone]
      rfl

end Default

theorem joinsEquals_of_isBlank {b : Char} (hb : isBlank b = true) : joinsEquals b = false := by
  unfold isBlank at hb
  unfold joinsEquals
  simp [Char.ext_iff, UInt32.ext_iff, ← Char.toNat_val] at hb ⊢
  omega

theorem not_isCut_of_isBlank {b : Char} (hb : isBlank b = true) (level : Int) (last : Option Char)
    (rest : List Char) : ¬ IsCut level last b rest := by
  rintro ⟨rfl, -⟩
  exact absurd hb (by decide)

theorem isCut_iff {last : Option Char} {gap gap' : Bool} {c : Char}
    (hgap : gap = gap' ∨ tidyDrops last c = true) (h : Respaced tidyDrops (some c) false false x y)
    {level : Int} (hlast : last.any isOpening = true → 0 < level) {before before' : Option Char}
    (hbefore : before.any joinsEquals = (!gap && last.any joinsEquals))
    (hbefore' : before'.any joinsEquals = (!gap' && last.any joinsEquals)) :
    IsCut level before c x ↔ IsCut level before' c y := by
  have hequals : tidyDrops (some '=') '=' = false := by decide
  refine and_congr_right fun hc => and_congr_right fun hlevel => ?_
  subst hc hlevel
  have hjoins : before.any joinsEquals = before'.any joinsEquals := by
    rw [hbefore, hbefore']
    rcases hgap with rfl | hfree
    · rfl
    · -- The blank may be dropped only behind an opening bracket, and that would raise the level.
      cases last with
      | none => simp
      | some d =>
        have hopen : isOpening d = true := by
          unfold tidyDrops at hfree
          unfold isOpening
          simp at hfree
          simp
          tauto
        exact absurd (hlast hopen) (Int.lt_irrefl 0)
  rw [hjoins]
  refine and_congr_right fun _ => not_congr ⟨?_, ?_⟩
  · exact h.head?_eq_some (by decide) hequals
  · exact h.symm.head?_eq_some (by decide) hequals

/-- Default values are cut off alike. `last` is the last character that is not blank, and `before`
and `before'` are the characters that really stand before the texts. -/
theorem cutDefaultFrom_alike {last : Option Char} {gap gap' : Bool}
    (h : Respaced tidyDrops last gap gap' x y) {level : Int} (hx : StaysAbove level x)
    (hlast : last.any isOpening = true → 0 < level) (before before' : Option Char)
    (hbefore : before.any joinsEquals = (!gap && last.any joinsEquals))
    (hbefore' : before'.any joinsEquals = (!gap' && last.any joinsEquals)) :
    CutsAlike tidyDrops last gap gap' (· = '=') (cutDefaultFrom level before x)
      (cutDefaultFrom level before' y) := by
  induction h generalizing level before before' with
  | nil => exact .none
  | @blankLeft last gap gap' b x y hb h ih =>
    rw [cutDefaultFrom_cons_of_not (not_isCut_of_isBlank hb _ _ _), nestingStep_of_isBlank hb,
      Int.add_zero]
    exact (ih ((staysAbove_cons_of_isBlank hb).mp hx) hlast (some b) before'
      (by simp [joinsEquals_of_isBlank hb]) hbefore').blankLeft hb
  | @blankRight last gap gap' b x y hb h ih =>
    rw [cutDefaultFrom_cons_of_not (not_isCut_of_isBlank hb _ _ y), nestingStep_of_isBlank hb,
      Int.add_zero]
    exact (ih hx hlast before (some b) hbefore (by simp [joinsEquals_of_isBlank hb])).blankRight hb
  | @char last gap gap' c x y hc hgap h ih =>
    have hsame := isCut_iff hgap h hlast hbefore hbefore'
    by_cases hcut : IsCut level before c x
    · rw [cutDefaultFrom_cons_of_isCut hcut, cutDefaultFrom_cons_of_isCut (hsame.mp hcut)]
      exact .some ⟨.nil last gap gap', c, hcut.1, h⟩
    · rw [cutDefaultFrom_cons_of_not hcut, cutDefaultFrom_cons_of_not (mt hsame.mpr hcut)]
      refine (ih hx.2 (fun hopen => ?_) (some c) (some c) (by simp) (by simp)).char hc hgap
      have hnonneg := hx.1
      rw [nestingStep, if_pos (by simpa using hopen)]
      omega

theorem endsSolid_cutArray (hx : EndsSolid x) : EndsSolid (cutArray x).1 := by
  unfold cutArray
  split
  · split
    · exact endsSolid_trimEnd _
    · exact hx
  · exact hx

theorem ofDeclaration_alike {v w : List Char} (h : Alike normalizeDrops x y)
    (hvalue : normalize v = normalize w) : ofDeclaration x v = ofDeclaration y w := by
  have hstart : ∀ c, normalizeDrops none c = true := fun _ => rfl
  obtain ⟨hdeclaration, harray⟩ := cutArray_alike (h.trim hstart) (endsSolid_trimEnd _)
    (endsSolid_trimEnd _)
  obtain ⟨hname, htype⟩ := cutName_alike hdeclaration (endsSolid_cutArray (endsSolid_trimEnd _))
    (endsSolid_cutArray (endsSolid_trimEnd _))
  unfold ofDeclaration
  dsimp only
  rw [hvalue, ← harray.normalize_eq, ← htype.normalize_eq, hname]

theorem read_alike (h : Alike tidyDrops x y) (hx : StaysAbove 0 x) :
    read x = read y := by
  have hmono {last : Option Char} {x y : List Char} (h : Respaced tidyDrops last false false x y) :
      Respaced normalizeDrops last false false x y :=
    h.mono fun _ _ => normalizeDrops_of_tidyDrops
  rw [read, read]
  unfold cutDefault
  rcases (cutDefaultFrom_alike h hx nofun none none rfl rfl).none_or_some with
    ⟨hcut, hcut'⟩ | ⟨cut, cut', hcut, hcut', hbefore, c, -, hafter⟩
  · rw [hcut, hcut']
    exact ofDeclaration_alike (hmono h) rfl
  · rw [hcut, hcut']
    exact ofDeclaration_alike (hmono hbefore) (hmono hafter).normalize_eq_of_start

end Alike

end Argument

/-! ## Argument lists -/

namespace Signature

open Text

theorem argumentParts_eq (inner : List Char) :
    argumentParts inner = if trimmedParts inner = ["void".toList] then [] else trimmedParts inner := by
  simp only [argumentParts, beq_iff_eq]

/-- How the parts of two texts belong together. -/
structure PartAlike (p q : List Char) : Prop where
  respaced : Alike tidyDrops p q
  staysAbove : StaysAbove 0 p
  isTrimmed : ∃ x y, p = trim x ∧ q = trim y

theorem isWordChar_of_mem_void : ∀ d ∈ "void".toList, isWordChar d = true :=
  List.all_eq_true.mp (by decide +kernel)

theorem PartAlike.eq_void_iff {p q : List Char} (h : PartAlike p q) :
    p = "void".toList ↔ q = "void".toList := by
  have hne : "void".toList ≠ [] := by decide
  have hspaced := h.respaced.mono fun _ _ => normalizeDrops_of_tidyDrops
  obtain ⟨x, y, rfl, rfl⟩ := h.isTrimmed
  constructor
  · intro hx
    rw [hx] at hspaced
    exact hspaced.eq_of_word isWordChar_of_mem_void hne
  · intro hy
    rw [hy] at hspaced
    exact hspaced.symm.eq_of_word isWordChar_of_mem_void hne

theorem PartAlike.isEmpty_eq {p q : List Char} (h : PartAlike p q) : p.isEmpty = q.isEmpty := by
  have hsame := h.respaced.withoutBlanks_eq
  obtain ⟨x, y, rfl, rfl⟩ := h.isTrimmed
  rw [trim, trim, withoutBlanks_trimEnd, withoutBlanks_trimEnd] at hsame
  rw [Bool.eq_iff_iff, List.isEmpty_iff, List.isEmpty_iff, trim, trim, trimEnd_eq_nil_iff,
    trimEnd_eq_nil_iff, hsame]

theorem map_read_eq_of_alike {ps qs : List (List Char)} (h : List.Forall₂ PartAlike ps qs) :
    ps.map Argument.read = qs.map Argument.read := by
  induction h with
  | nil => rfl
  | cons hpart _ ih =>
    rw [List.map_cons, List.map_cons, ih, Argument.read_alike hpart.respaced hpart.staysAbove]

section Alike

variable {x y : List Char}

theorem trimmedParts_alike (h : Alike tidyDrops x y) (hx : StaysAbove 0 x) :
    List.Forall₂ PartAlike (trimmedParts x) (trimmedParts y) := by
  have hstart : ∀ c, tidyDrops none c = true := fun _ => rfl
  have hsplit := h.splitFrom hstart (by decide : isBlank ',' = false) 0
  have habove : ∀ part ∈ splitFrom ',' 0 x, StaysAbove 0 part := fun part =>
    staysAbove_of_mem_splitFrom hx
  have hempty : Relator.LiftFun PartAlike (· ↔ ·) (fun p => (!p.isEmpty) = true)
      (fun q => (!q.isEmpty) = true) := by
    intro p q hpart
    simp only [hpart.isEmpty_eq]
  refine List.rel_filter hempty ?_
  rw [List.forall₂_map_left_iff, List.forall₂_map_right_iff]
  refine (List.forall₂_and_left _ _ |>.mpr ⟨habove, hsplit⟩).imp fun p q hpart => ?_
  exact ⟨hpart.2.trim hstart, hpart.1.trim, p, q, rfl, rfl⟩

theorem argumentParts_alike (h : Alike tidyDrops x y) (hx : StaysAbove 0 x) :
    (argumentParts x).map Argument.read = (argumentParts y).map Argument.read := by
  have hparts := trimmedParts_alike h hx
  rw [argumentParts_eq, argumentParts_eq]
  generalize trimmedParts x = ps at hparts
  generalize trimmedParts y = qs at hparts
  have hvoid : ps = ["void".toList] ↔ qs = ["void".toList] := by
    cases hparts with
    | nil => simp
    | cons hpart hrest =>
      cases hrest with
      | nil => rw [List.singleton_inj, List.singleton_inj, hpart.eq_void_iff]
      | cons => simp
  simp only [hvoid]
  split
  · rfl
  · exact map_read_eq_of_alike hparts

theorem cutAtClose_alike (h : Alike tidyDrops x y) :
    Alike tidyDrops (cutAtClose x).1 (cutAtClose y).1 ∧
      normalize (cutAtClose x).2 = normalize (cutAtClose y).2 := by
  unfold cutAtClose
  rw [closeFrom_eq_scan, closeFrom_eq_scan]
  rcases (h.scan passesBlanks_closeStep 0).none_or_some with
    ⟨hcut, hcut'⟩ | ⟨cut, cut', hcut, hcut', hbefore, c, -, hafter⟩
  · rw [hcut, hcut']
    exact ⟨h, rfl⟩
  · rw [hcut, hcut']
    exact ⟨hbefore,
      (hafter.mono fun _ _ => normalizeDrops_of_tidyDrops).normalize_eq_of_start⟩

theorem ofText_alike (h : Alike tidyDrops x y) : ofText x = ofText y := by
  have hstart : ∀ c, tidyDrops none c = true := fun _ => rfl
  unfold ofText
  rw [cut_eq_scan, cut_eq_scan]
  have hparenthesis : isBlank '(' = false := by decide
  rcases (h.scan (passesBlanks_stopAt hparenthesis) ()).none_or_some with
    ⟨hcut, hcut'⟩ | ⟨cut, cut', hcut, hcut', -, c, -, hafter⟩
  · rw [hcut, hcut']
  · rw [hcut, hcut']
    dsimp only
    obtain ⟨hinner, htrailing⟩ := cutAtClose_alike (hafter.toStart hstart false false)
    rw [argumentParts_alike hinner (staysAbove_cutAtClose cut.2), htrailing]

theorem read_eq_ofText (text : String) : read text = ofText text.toList :=
  (ofText_alike (respaced_trim (fun _ => rfl) false false text.toList)).symm

theorem ofText_tidy (text : List Char) : ofText (tidy text) = ofText text :=
  (ofText_alike (respaced_tidy text)).symm

end Alike

end Signature

end SymbolAtlas
