import SymbolAtlas.Build.Bases
import SymbolAtlas.Proofs.Signature.Defaults

/-!
# Bases that mention parameters

A base whose template arguments mention a parameter of the class itself stays the template, and its
arguments are filled in when the class is instantiated. The two steps look for parameters in different
ways: the first one at the words of the text, the other one at its identifiers, which may hold colons
but only ASCII letters. They come to the same answer if no parameter is a part of a qualified name, of
a number or of a word with other letters.
-/

set_option autoImplicit false

namespace SymbolAtlas

namespace Text

/-! ## Runs -/

section Runs

variable {p : Char → Bool} {c : Char}

theorem runs_cons_of_neg (hc : p c = false) (rest : List Char) : runs p (c :: rest) = runs p rest := by
  conv_lhs => unfold runs
  rw [if_neg (by simp [hc])]

theorem runs_cons_of_pos (hc : p c = true) (rest : List Char) :
    runs p (c :: rest) = (c :: rest.takeWhile p) :: runs p (rest.dropWhile p) := by
  induction rest generalizing c with
  | nil =>
    conv_lhs => unfold runs
    rw [if_pos hc]
    rfl
  | cons d rest ih =>
    conv_lhs => unfold runs
    rw [if_pos hc]
    cases hd : p d with
    | true =>
      rw [ih hd]
      simp [hd]
    | false =>
      rw [List.dropWhile_cons_of_neg (by simp [hd])]
      cases runs p (d :: rest) <;> simp [hd]

theorem any_getLast?_of_append {x y : List Char} (h : (x ++ y).getLast?.any p = false) :
    y.getLast?.any p = false := by
  by_cases hne : y = []
  · rw [hne]
    rfl
  · rwa [List.getLast?_append_of_ne_nil x hne] at h

/-- A longest run of characters in a text. -/
structure IsRun (p : Char → Bool) (run cs : List Char) : Prop where
  ne_nil : run ≠ []
  all : ∀ c ∈ run, p c = true
  ends : ∃ before after, cs = before ++ (run ++ after) ∧ before.getLast?.any p = false ∧
    after.head?.any p = false

theorem isRun_of_mem_runs {run cs : List Char} (h : run ∈ runs p cs) : IsRun p run cs := by
  induction hn : cs.length using Nat.strongRecOn generalizing cs with
  | ind n ih =>
    cases cs with
    | nil => exact absurd h List.not_mem_nil
    | cons c rest =>
      cases hc : p c with
      | false =>
        rw [runs_cons_of_neg hc] at h
        obtain ⟨hne, hall, before, after, rfl, hbefore, hafter⟩ := ih _ (by simp [← hn]) h rfl
        refine ⟨hne, hall, c :: before, after, rfl, ?_, hafter⟩
        rw [List.getLast?_cons]
        cases hlast : before.getLast? with
        | none => simpa using hc
        | some d => simpa [hlast] using hbefore
      | true =>
        rw [runs_cons_of_pos hc] at h
        have htake : ∀ d ∈ c :: rest.takeWhile p, p d = true := by
          simpa [hc] using List.all_eq_true.mp (List.all_takeWhile)
        rcases List.mem_cons.mp h with rfl | h
        · refine ⟨List.cons_ne_nil c _, htake, [], rest.dropWhile p, ?_, rfl,
            head?_any_dropWhile p rest⟩
          rw [List.nil_append, List.cons_append, List.takeWhile_append_dropWhile]
        · have hlength : (rest.dropWhile p).length < n := by
            have := (List.dropWhile_suffix (l := rest) p).length_le
            simp only [← hn, List.length_cons]
            omega
          obtain ⟨hne, hall, before, after, hsplit, hbefore, hafter⟩ := ih _ hlength h rfl
          have hrest : c :: rest = (c :: rest.takeWhile p ++ before) ++ (run ++ after) := by
            rw [List.append_assoc, ← hsplit, List.cons_append, List.takeWhile_append_dropWhile]
          refine ⟨hne, hall, _, after, hrest, ?_, hafter⟩
          -- What is left begins with no character of a run, so that something stands before.
          have hends := head?_any_dropWhile p rest
          rw [hsplit] at hends
          cases before with
          | nil =>
            obtain ⟨d, run, rfl⟩ := List.exists_cons_of_ne_nil hne
            have hd := hall d List.mem_cons_self
            simp [hd] at hends
          | cons d before =>
            rwa [List.getLast?_append_of_ne_nil _ (List.cons_ne_nil d before)]

theorem mem_runs_of_isRun {run cs : List Char} (h : IsRun p run cs) : run ∈ runs p cs := by
  obtain ⟨hne, hall, before, after, rfl, hbefore, hafter⟩ := h
  induction hn : before.length using Nat.strongRecOn generalizing before with
  | ind n ih =>
    cases before with
    | nil =>
      obtain ⟨c, run, rfl⟩ := List.exists_cons_of_ne_nil hne
      have hrun : ∀ d ∈ run, p d = true := fun d hd => hall d (List.mem_cons_of_mem c hd)
      have hends : ∀ d ∈ after.head?, p d = false := by
        intro d hd
        rwa [Option.mem_def.mp hd] at hafter
      rw [List.nil_append, List.cons_append, runs_cons_of_pos (hall c List.mem_cons_self),
        (span_append hrun hends).1]
      exact List.mem_cons_self
    | cons c before =>
      have hlast {rest : List Char} (hrest : rest <:+ before) : rest.getLast?.any p = false := by
        obtain ⟨start, rfl⟩ := hrest
        exact any_getLast?_of_append (x := c :: start) hbefore
      rw [List.cons_append]
      cases hc : p c with
      | false =>
        rw [runs_cons_of_neg hc]
        exact ih _ (by simp [← hn]) before (hlast List.suffix_rfl) rfl
      | true =>
        rw [runs_cons_of_pos hc]
        -- The character right before the run stops the one that begins here.
        obtain ⟨start, d, rfl, hd⟩ : ∃ start d, before = start ++ [d] ∧ p d = false := by
          rcases List.eq_nil_or_concat before with rfl | ⟨start, d, rfl⟩
          · exact absurd (hc.symm.trans hbefore) Bool.noConfusion
          · refine ⟨start, d, List.concat_eq_append, ?_⟩
            have hend := hlast List.suffix_rfl
            rwa [List.concat_eq_append, List.getLast?_concat] at hend
        have hdrop : (start ++ [d] ++ (run ++ after)).dropWhile p
            = (start ++ [d]).dropWhile p ++ (run ++ after) := by
          rw [List.append_assoc, List.singleton_append, Substitution.dropWhile_append_cons hd,
            Substitution.dropWhile_append_cons hd, List.append_assoc, List.singleton_append]
        rw [hdrop]
        refine List.mem_cons_of_mem _ (ih _ ?_ _ (hlast (List.dropWhile_suffix p)) rfl)
        have := (List.dropWhile_suffix (l := start ++ [d]) p).length_le
        simp only [← hn, List.length_cons]
        omega

theorem mem_runs_iff {run cs : List Char} : run ∈ runs p cs ↔ IsRun p run cs :=
  ⟨isRun_of_mem_runs, mem_runs_of_isRun⟩

end Runs

theorem IsRun.exists_append {run cs : List Char} (h : IsRun isWordChar run cs) (x : List Char) :
    ∃ start, IsRun isWordChar (start ++ run) (x ++ cs) ∧
      (start = [] ∨ start <:+ x ∧ run.head? = cs.head?) := by
  obtain ⟨hne, hall, before, after, rfl, hbefore, hafter⟩ := h
  by_cases hx : (x ++ before).getLast?.any isWordChar = false
  · exact ⟨[], ⟨hne, hall, x ++ before, after, (List.append_assoc ..).symm, hx, hafter⟩, .inl rfl⟩
  · obtain rfl : before = [] := by
      by_contra hbefore'
      rw [List.getLast?_append_of_ne_nil x hbefore'] at hx
      exact hx hbefore
    have hcut := Argument.cutFinalWord_append x
    refine ⟨(Argument.cutFinalWord x).2, ⟨by simp [hne], fun c hc => ?_, (Argument.cutFinalWord x).1,
      after, ?_, Argument.getLast?_cutFinalWord x, hafter⟩, .inr ⟨⟨_, hcut⟩, ?_⟩⟩
    · rcases List.mem_append.mp hc with hc | hc
      · exact Argument.isWordChar_of_mem_cutFinalWord hc
      · exact hall c hc
    · rw [List.nil_append, List.append_assoc _ run, ← List.append_assoc _ _ (run ++ after), hcut]
    · rw [List.nil_append, List.head?_append_of_ne_nil _ hne]

end Text

namespace Substitution

open Text

/-! ## Words and identifiers -/

/-- A name of ASCII letters, digits and underscores that does not begin with a digit. -/
def IsSimpleName (x : List Char) : Prop :=
  x.head?.any beginsIdentifier = true ∧ ∀ c ∈ x, continuesIdentifier c = true ∧ c ≠ ':'

instance (x : List Char) : Decidable (IsSimpleName x) :=
  decidable_of_iff
    ((x.head?.any beginsIdentifier && x.all fun c => continuesIdentifier c && c != ':') = true)
    (by simp [IsSimpleName])

namespace IsSimpleName

variable {x : List Char}

theorem isIdentifier (hx : IsSimpleName x) : IsIdentifier x := by
  obtain ⟨hhead, hall⟩ := hx
  cases x with
  | nil => cases hhead
  | cons c x => exact ⟨c, x, rfl, hhead, fun d hd => (hall d (List.mem_cons_of_mem c hd)).1⟩

theorem isWordChar (hx : IsSimpleName x) {c : Char} (hc : c ∈ x) : isWordChar c = true :=
  isWordChar_of_continuesIdentifier (hx.2 c hc).1 (hx.2 c hc).2

theorem eq_of_isRun (hx : IsSimpleName x) {run : List Char} (h : IsRun Text.isWordChar run x) :
    run = x := by
  obtain ⟨-, -, before, after, hsplit, hbefore, hafter⟩ := h
  obtain rfl : before = [] := by
    rcases List.eq_nil_or_concat before with rfl | ⟨before, d, rfl⟩
    · rfl
    · rw [List.concat_eq_append] at hbefore hsplit
      have hd := hx.isWordChar (c := d) (by rw [hsplit]; simp)
      rw [List.getLast?_concat, Option.any_some, hd] at hbefore
      cases hbefore
  cases after with
  | nil => rw [hsplit, List.nil_append, List.append_nil]
  | cons d after =>
    have hd := hx.isWordChar (c := d) (by rw [hsplit]; simp)
    rw [List.head?_cons, Option.any_some, hd] at hafter
    cases hafter

end IsSimpleName

theorem isSimpleName_of_isIdentifier {x : List Char} (hx : IsIdentifier x) (hcolon : ':' ∉ x) :
    IsSimpleName x := by
  refine ⟨?_, fun c hc => ⟨hx.continues hc, ?_⟩⟩
  · obtain ⟨c, word, rfl, hc, -⟩ := hx
    exact hc
  · rintro rfl
    exact hcolon hc

section Scanners

variable {name cs : List Char} (hname : IsSimpleName name)

include hname

theorem exists_identifier_of_isRun (h : IsRun isWordChar name cs) :
    ∃ y ∈ identifiers cs, IsRun isWordChar name y := by
  fun_induction identifiers cs with
  | case1 =>
    obtain ⟨hne, -, before, after, hsplit, -⟩ := h
    simp [hne] at hsplit
  | case2 c rest hc ih =>
    obtain ⟨hne, hall, before, after, hsplit, hbefore, hafter⟩ := h
    rw [cons_eq_identifier_append, List.append_eq_append_iff] at hsplit
    generalize hy : c :: rest.takeWhile continuesIdentifier = y at hsplit
    rcases hsplit with ⟨before', rfl, hrest⟩ | ⟨tail, htail, hsplit⟩
    · -- The word stands behind the first identifier.
      obtain ⟨y', hy', hrun⟩ :=
        ih ⟨hne, hall, before', after, hrest, any_getLast?_of_append hbefore, hafter⟩
      exact ⟨y', List.mem_cons_of_mem _ hy', hrun⟩
    · refine ⟨y, hy ▸ List.mem_cons_self, hne, hall, before, ?_⟩
      rcases List.append_eq_append_iff.mp hsplit with ⟨after', rfl, rfl⟩ | ⟨middle, rfl, hrest⟩
      · refine ⟨after', htail, hbefore, ?_⟩
        cases after' with
        | nil => rfl
        | cons d after' => exact hafter
      · -- What follows the identifier does not continue it, and so not the word.
        have hends := head?_dropWhile_continues rest
        rw [hrest] at hends
        cases middle with
        | nil => exact ⟨[], by rw [htail]; simp, hbefore, rfl⟩
        | cons d middle =>
          have hd := (hname.2 d (by simp)).1
          rw [hends d rfl] at hd
          cases hd
  | case3 c rest hc ih =>
    obtain ⟨hne, hall, before, after, hsplit, hbefore, hafter⟩ := h
    cases before with
    | nil =>
      obtain ⟨d, name, rfl⟩ := List.exists_cons_of_ne_nil hne
      obtain ⟨rfl, -⟩ := List.cons.inj hsplit
      exact absurd hname.1 hc
    | cons d before =>
      obtain ⟨rfl, rfl⟩ := List.cons.inj hsplit
      exact ih ⟨hne, hall, before, after, rfl, any_getLast?_of_append (x := [c]) hbefore, hafter⟩

theorem exists_isRun_of_mem_identifiers (h : name ∈ identifiers cs) :
    ∃ word, IsRun isWordChar word cs ∧ name ∈ identifiers word := by
  fun_induction identifiers cs with
  | case1 => exact absurd h List.not_mem_nil
  | case2 c rest hc ih =>
    have hends := head?_dropWhile_continues rest
    rw [cons_eq_identifier_append]
    rcases List.mem_cons.mp h with rfl | h
    · generalize rest.dropWhile continuesIdentifier = next at hends
      have hprefix : next.takeWhile isWordChar <+: next := List.takeWhile_prefix _
      refine ⟨(c :: rest.takeWhile continuesIdentifier) ++ next.takeWhile isWordChar,
        ⟨by simp, fun d hd => ?_, [], next.dropWhile isWordChar, ?_, rfl, head?_any_dropWhile _ _⟩, ?_⟩
      · exact (List.mem_append.mp hd).elim hname.isWordChar
          (List.all_eq_true.mp List.all_takeWhile d)
      · rw [List.nil_append, List.append_assoc, List.takeWhile_append_dropWhile]
      · rw [identifiers_cons_append hc (List.all_eq_true.mp List.all_takeWhile)
          (head?_of_isPrefix hends hprefix)]
        exact List.mem_cons_self
    · obtain ⟨word, hword, hmem⟩ := ih h
      obtain ⟨start, hrun, hstart⟩ :=
        hword.exists_append (c :: rest.takeWhile continuesIdentifier)
      refine ⟨start ++ word, hrun, ?_⟩
      rcases hstart with rfl | ⟨-, hhead⟩
      · exact hmem
      · obtain ⟨d, word, rfl⟩ := List.exists_cons_of_ne_nil hword.ne_nil
        have hd : continuesIdentifier d = false := hends d hhead.symm
        rw [identifiers_append_cons hd]
        rw [identifiers_cons_of_ends hd] at hmem
        exact List.mem_append_right _ hmem
  | case3 c rest hc ih =>
    obtain ⟨word, hword, hmem⟩ := ih h
    obtain ⟨start, hrun, hstart⟩ := hword.exists_append [c]
    refine ⟨start ++ word, hrun, ?_⟩
    rcases hstart with rfl | ⟨hsuffix, -⟩
    · exact hmem
    · rcases List.suffix_cons_iff.mp hsuffix with rfl | hsuffix
      · rwa [List.singleton_append, identifiers, if_neg hc]
      · rwa [List.suffix_nil.mp hsuffix]

/-- Words and identifiers agree on a name that is no part of a qualified name, and no part of a word
that is not a simple name itself. -/
theorem mem_runs_iff_mem_identifiers
    (hqualified : ∀ y ∈ identifiers cs, ':' ∈ y → name ∉ runs isWordChar y)
    (hwords : ∀ word ∈ runs isWordChar cs, ¬ IsSimpleName word → name ∉ identifiers word) :
    name ∈ runs isWordChar cs ↔ name ∈ identifiers cs := by
  constructor
  · intro h
    obtain ⟨y, hy, hrun⟩ := exists_identifier_of_isRun hname (mem_runs_iff.mp h)
    have hcolon : ':' ∉ y := fun hcolon => hqualified y hy hcolon (mem_runs_iff.mpr hrun)
    have hsimple := isSimpleName_of_isIdentifier (isIdentifier_of_mem_identifiers hy) hcolon
    rwa [hsimple.eq_of_isRun hrun]
  · intro h
    obtain ⟨word, hrun, hmem⟩ := exists_isRun_of_mem_identifiers hname h
    have hword := mem_runs_iff.mpr hrun
    have hsimple : IsSimpleName word := by
      by_contra hsimple
      exact hwords word hword hsimple hmem
    rw [hsimple.isIdentifier.identifiers_eq, List.mem_singleton] at hmem
    rwa [hmem]

end Scanners

/-! ## Fresh names in the place of parameters -/

/-- Each parameter has an actual argument, which is a simple name that is no identifier of the
text. -/
structure AreFresh (actuals formals : List Argument) (text : String) : Prop where
  length_le : formals.length ≤ actuals.length
  names : ∀ actual ∈ actuals, IsSimpleName actual.typeText.toList ∧ actual.name = ""
  notMem : ∀ actual ∈ actuals, actual.typeText.toList ∉ identifiers text.toList

instance (actuals formals : List Argument) (text : String) :
    Decidable (AreFresh actuals formals text) :=
  decidable_of_iff (formals.length ≤ actuals.length ∧
      (actuals.all fun actual => decide (IsSimpleName actual.typeText.toList) && actual.name == "")
        = true ∧
      (actuals.all fun actual => !(identifiers text.toList).contains actual.typeText.toList) = true)
    ⟨fun h => ⟨h.1, by simpa using h.2.1, by simpa using h.2.2⟩,
      fun h => ⟨h.length_le, by simpa using h.names, by simpa using h.notMem⟩⟩

section Fresh

variable {formals actuals : List Argument} {text : String} (h : AreFresh actuals formals text)

include h

theorem AreFresh.written_eq {x : List Char} (hx : x ∈ identifiers text.toList) {index : Nat}
    (hindex : (formals.findIdx? fun formal => formal.name == String.ofList x) = some index)
    (expand : String → Option String) (whole : String) :
    ∃ actual ∈ actuals, written formals actuals expand whole x = actual.typeText.toList ++ [' '] := by
  have hlt : index < actuals.length :=
    Nat.lt_of_lt_of_le (List.findIdx?_eq_some_iff_findIdx_eq.mp hindex).1 h.length_le
  have hactual : actuals[index]? = some actuals[index] := List.getElem?_eq_getElem hlt
  have hmem : actuals[index] ∈ actuals := List.getElem_mem hlt
  obtain ⟨hsimple, hunnamed⟩ := h.names _ hmem
  have htype : actuals[index].typeText ≠ "" := by
    intro hempty
    rw [hempty] at hsimple
    cases hsimple.1
  have hgrows : growsFrom actuals[index].typeText (String.ofList x) = false := by
    rw [← Bool.not_eq_true, growsFrom_ofList]
    rintro (rfl | ⟨rest, hrest⟩)
    · exact h.notMem _ hmem hx
    · exact (hsimple.2 ':' (by rw [← hrest]; simp)).2 rfl
  refine ⟨_, hmem, ?_⟩
  rw [written_of_actual hindex hactual htype hgrows, actualText, if_pos hunnamed]

/-- Fresh names show where parameters are replaced: the identifiers of a text stay the same if and
only if none of them is a parameter. -/
theorem AreFresh.identifiers_substitute_eq_iff :
    identifiers (substitute text formals actuals).toList = identifiers text.toList ↔
      ∀ formal ∈ formals, formal.name.toList ∉ identifiers text.toList := by
  obtain ⟨expand, hexpand⟩ : ∃ expand, substitute text formals actuals
      = rewriteWith formals actuals expand text := by
    unfold substitute
    cases formals.length <;> exact ⟨_, rfl⟩
  rw [hexpand, toList_rewriteWith]
  split
  · next hnone => simp [hnone]
  rw [identifiers_tidy, identifiers_mapIdentifiers (closesOff_written _ _ _ _)]
  constructor
  · intro hsame formal hformal hmem
    obtain ⟨index, hindex⟩ : ∃ index,
        (formals.findIdx? fun other => other.name == String.ofList formal.name.toList) = some index := by
      refine Option.ne_none_iff_exists'.mp fun hnone => ?_
      have hother := List.findIdx?_eq_none_iff.mp hnone formal hformal
      simp at hother
    obtain ⟨actual, hactual, hwritten⟩ := h.written_eq hmem hindex expand text
    refine h.notMem actual hactual ?_
    rw [← hsame, List.mem_flatMap]
    refine ⟨_, hmem, ?_⟩
    rw [hwritten, identifiers_append_blank, (h.names actual hactual).1.isIdentifier.identifiers_eq]
    exact List.mem_singleton_self _
  · intro hno
    have hstays : ∀ x ∈ identifiers text.toList,
        identifiers (written formals actuals expand text x) = [x] := by
      intro x hx
      have hnone : (formals.findIdx? fun formal => formal.name == String.ofList x) = none := by
        rw [List.findIdx?_eq_none_iff]
        intro formal hformal
        rw [beq_eq_false_iff_ne]
        rintro heq
        refine hno formal hformal ?_
        rwa [heq, String.toList_ofList]
      rw [written_of_none hnone, (isIdentifier_of_mem_identifiers hx).identifiers_eq]
    rw [List.flatMap_congr hstays, List.flatMap_singleton']

end Fresh

end Substitution

namespace Build

open Text Substitution

/-- No parameter is a part of a qualified name in the text, or of a word that is not a simple name,
such as a number with a suffix or a word with letters beyond ASCII. -/
structure StandAlone (formals : List Argument) (text : String) : Prop where
  qualified : ∀ y ∈ identifiers text.toList, ':' ∈ y →
    ∀ formal ∈ formals, formal.name.toList ∉ runs isWordChar y
  words : ∀ word ∈ runs isWordChar text.toList, ¬ IsSimpleName word →
    ∀ formal ∈ formals, formal.name.toList ∉ identifiers word

instance (formals : List Argument) (text : String) : Decidable (StandAlone formals text) :=
  decidable_of_iff
    (((identifiers text.toList).all fun y => !y.contains ':' ||
        formals.all fun formal => !(runs isWordChar y).contains formal.name.toList) = true ∧
      ((runs isWordChar text.toList).all fun word => decide (IsSimpleName word) ||
        formals.all fun formal => !(identifiers word).contains formal.name.toList) = true)
    ⟨fun h => ⟨by simpa [imp_iff_not_or] using h.1, by simpa [imp_iff_not_or] using h.2⟩,
      fun h => ⟨by simpa [imp_iff_not_or] using h.qualified,
        by simpa [imp_iff_not_or] using h.words⟩⟩

theorem mentionsAny_eq_true_iff {text : String} {names : List String} :
    mentionsAny text names = true ↔ ∃ name ∈ names, name.toList ∈ runs isWordChar text.toList := by
  unfold mentionsAny
  rw [List.any_eq_true]
  constructor
  · rintro ⟨word, hword, hname⟩
    refine ⟨_, List.contains_iff_mem.mp hname, ?_⟩
    rwa [String.toList_ofList]
  · rintro ⟨name, hname, hword⟩
    refine ⟨_, hword, ?_⟩
    rwa [List.contains_iff_mem, String.ofList_toList]

/-- The base that a declaration names is found to be a template. -/
def LeadsToTemplate (progress : Progress) (scope : Option EntityId) (decl : EntityDecl)
    (base : BaseDecl) : Prop :=
  let found := (findBase progress scope (QualifiedName.cutTemplateArguments base.name).1 decl).value
  (found.1.atlas.class? found.2).any (·.isTemplate) = true

/-- A base with arguments that is a template is linked as it is if its arguments mention a parameter,
and put off otherwise. -/
theorem addBase_keeps_iff {progress : Progress} {pending : List PendingInstance}
    {scope : Option EntityId} {decl : EntityDecl} {base : BaseDecl} {formals : List String}
    (hwords : (edgeWords base decl).value ≠ none)
    (hspec : (QualifiedName.cutTemplateArguments base.name).2 ≠ "")
    (htemplate : LeadsToTemplate progress scope decl base) (child : EntityId) :
    (addBase child decl scope formals (progress, pending) base).value.2 = pending ↔
      mentionsAny (QualifiedName.cutTemplateArguments base.name).2 formals = true := by
  unfold LeadsToTemplate at htemplate
  unfold addBase
  rw [Noted.value_bind]
  split
  · next hnone => exact absurd hnone hwords
  · generalize QualifiedName.cutTemplateArguments base.name = parts at hspec htemplate ⊢
    obtain ⟨name, spec⟩ := parts
    dsimp only at hspec htemplate ⊢
    rw [Noted.value_bind, htemplate]
    cases mentionsAny spec formals with
    | true =>
      rw [if_neg (by simp)]
      exact iff_of_true rfl rfl
    | false =>
      rw [if_pos (by simp [hspec])]
      simp

/-- Whether the arguments of a base mention a parameter is whether filling in fresh names would
change them, if the parameters stand alone. So a base stays the template if and only if its arguments
are to be rewritten in every instance. -/
theorem mentionsAny_iff_rewritten {formals actuals : List Argument} {spec : String}
    (hnames : ∀ formal ∈ formals, IsSimpleName formal.name.toList)
    (hfresh : AreFresh actuals formals spec) (halone : StandAlone formals spec) :
    (mentionsAny spec (formals.map (·.name)) = true ↔
        identifiers (substitute spec formals actuals).toList ≠ identifiers spec.toList) ∧
      ∀ progress pending scope decl base, (edgeWords base decl).value ≠ none →
        (QualifiedName.cutTemplateArguments base.name).2 = spec → spec ≠ "" →
        LeadsToTemplate progress scope decl base → ∀ child,
          ((addBase child decl scope (formals.map (·.name)) (progress, pending) base).value.2 = pending ↔
            identifiers (substitute spec formals actuals).toList ≠ identifiers spec.toList) := by
  have hagree : mentionsAny spec (formals.map (·.name)) = true ↔
      identifiers (substitute spec formals actuals).toList ≠ identifiers spec.toList := by
    rw [Ne, hfresh.identifiers_substitute_eq_iff, mentionsAny_eq_true_iff]
    have hsame : ∀ formal ∈ formals, formal.name.toList ∈ runs isWordChar spec.toList ↔
        formal.name.toList ∈ identifiers spec.toList := fun formal hformal =>
      mem_runs_iff_mem_identifiers (hnames formal hformal)
        (fun y hy hcolon => halone.qualified y hy hcolon formal hformal)
        (fun word hword hsimple => halone.words word hword hsimple formal hformal)
    constructor
    · rintro ⟨name, hname, hmem⟩ hno
      obtain ⟨formal, hformal, rfl⟩ := List.mem_map.mp hname
      exact hno formal hformal ((hsame formal hformal).mp hmem)
    · intro hsome
      obtain ⟨formal, hformal, hmem⟩ := not_forall₂.mp hsome
      exact ⟨_, List.mem_map_of_mem hformal, (hsame formal hformal).mpr (not_not.mp hmem)⟩
  refine ⟨hagree, fun progress pending scope decl base hwords hspec hne htemplate child => ?_⟩
  subst hspec
  rw [addBase_keeps_iff hwords hne htemplate, hagree]

/-- A template `Map` that bases refer to. -/
def mapping : Progress where
  atlas := ((Atlas.empty {}).register "Map" .classKind {}).1.modifyClass ⟨1⟩ fun c =>
    { c with formals := [{ typeText := "class", name := "T" }] }

/-- One parameter is mentioned beside a qualified name, the other one only ends a longer word. -/
theorem mentionsAny_iff_rewritten_mapping :
    let formals : List Argument := [
      { typeText := "class", name := "K" }, { typeText := "class", name := "D" }]
    let actuals : List Argument := [{ typeText := "x" }, { typeText := "y" }]
    let spec := "<std::pair<K, int>, Vec2D>"
    let base := BaseDecl.plain "Map<std::pair<K, int>, Vec2D>"
    (∀ formal ∈ formals, IsSimpleName formal.name.toList) ∧ AreFresh actuals formals spec ∧
      StandAlone formals spec ∧ (edgeWords base {}).value ≠ none ∧
      (QualifiedName.cutTemplateArguments base.name).2 = spec ∧
      LeadsToTemplate mapping none {} base ∧
      identifiers (substitute spec formals actuals).toList ≠ identifiers spec.toList ∧
      (addBase ⟨2⟩ {} none (formals.map (·.name)) (mapping, []) base).value.2 = [] := by
  intro formals actuals spec base
  have hnames : ∀ formal ∈ formals, IsSimpleName formal.name.toList :=
    List.forall_mem_cons.mpr ⟨by decide +kernel, List.forall_mem_singleton.mpr (by decide +kernel)⟩
  have hfresh : AreFresh actuals formals spec := by decide +kernel
  have halone : StandAlone formals spec := by decide +kernel
  have hwords : (edgeWords base {}).value ≠ none := by decide +kernel
  have hspec : (QualifiedName.cutTemplateArguments base.name).2 = spec := by decide +kernel
  have htemplate : LeadsToTemplate mapping none {} base := by
    unfold LeadsToTemplate
    decide +kernel
  obtain ⟨hagree, hkeeps⟩ := mentionsAny_iff_rewritten hnames hfresh halone
  have hrewritten := hagree.mp (by decide +kernel)
  exact ⟨hnames, hfresh, halone, hwords, hspec, htemplate, hrewritten,
    (hkeeps mapping [] none {} base hwords hspec (by decide) htemplate ⟨2⟩).mpr hrewritten⟩

/-- The word `T` of a qualified name is taken for the parameter but is not replaced, and the suffix of
a number is replaced but not taken for the parameter. -/
theorem mentions_and_replacement_differ :
    let qualified : List Argument := [{ typeText := "class", name := "T" }]
    let suffix : List Argument := [{ typeText := "int", name := "u" }]
    let actuals : List Argument := [{ typeText := "k" }]
    (IsSimpleName "T".toList ∧ AreFresh actuals qualified "<ns::T>" ∧
        mentionsAny "<ns::T>" ["T"] = true ∧
        identifiers (substitute "<ns::T>" qualified actuals).toList = identifiers "<ns::T>".toList) ∧
      IsSimpleName "u".toList ∧ AreFresh actuals suffix "<10u>" ∧
        mentionsAny "<10u>" ["u"] = false ∧
        identifiers (substitute "<10u>" suffix actuals).toList ≠ identifiers "<10u>".toList := by
  refine ⟨⟨?_, ?_, ?_, ?_⟩, ?_, ?_, ?_, ?_⟩ <;> decide +kernel

end Build

end SymbolAtlas
