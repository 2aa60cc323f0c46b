import SymbolAtlas.Proofs.Signature.Rereading
import SymbolAtlas.Proofs.Text.Tokens

/-!
# Argument lists that are shown and read again

An argument is shown in canonical spacing, with a blank before its name and blanks around the equals
sign of its default value. So it keeps its tokens, and no blank comes to stand before an equals sign
that belongs to a comparison. What is shown is cut at the same places as what was read, and a list of
such arguments is taken apart at the commas that were put between them.
-/

set_option autoImplicit false

namespace SymbolAtlas

/-! ## Equals signs in canonical spacing -/

namespace Text

/-- Blanks stand before an equals sign only behind a comma. `last` is the last character that is not
blank, and `gap` says whether blanks have been passed since. -/
def EqualsJoined (last : Option Char) (gap : Bool) : List Char → Prop
  | [] => True
  | c :: rest =>
    if isBlank c then EqualsJoined last true rest
    else (c = '=' → gap = true → last = some ',') ∧ EqualsJoined (some c) false rest

section EqualsJoined

variable {last : Option Char} {gap : Bool} {c : Char} {x y : List Char}

theorem equalsJoined_cons_of_isBlank (hc : isBlank c = true) :
    EqualsJoined last gap (c :: x) ↔ EqualsJoined last true x := by
  rw [EqualsJoined, if_pos hc]

theorem equalsJoined_cons (hc : isBlank c = false) :
    EqualsJoined last gap (c :: x) ↔
      (c = '=' → gap = true → last = some ',') ∧ EqualsJoined (some c) false x := by
  rw [EqualsJoined, if_neg (by simp [hc])]

theorem EqualsJoined.append_left (h : EqualsJoined last gap (x ++ y)) : EqualsJoined last gap x := by
  induction x generalizing last gap with
  | nil => trivial
  | cons c x ih =>
    rw [List.cons_append] at h
    cases hc : isBlank c with
    | true =>
      rw [equalsJoined_cons_of_isBlank hc] at h ⊢
      exact ih h
    | false =>
      rw [equalsJoined_cons hc] at h ⊢
      exact ⟨h.1, ih h.2⟩

theorem EqualsJoined.append (h : EqualsJoined last gap x)
    (hy : ∀ last gap, EqualsJoined last gap y) : EqualsJoined last gap (x ++ y) := by
  induction x generalizing last gap with
  | nil => exact hy last gap
  | cons c x ih =>
    rw [List.cons_append]
    cases hc : isBlank c with
    | true =>
      rw [equalsJoined_cons_of_isBlank hc] at h ⊢
      exact ih h
    | false =>
      rw [equalsJoined_cons hc] at h ⊢
      exact ⟨h.1, ih h.2⟩

theorem equalsJoined_of_notMem (h : '=' ∉ x) (last : Option Char) (gap : Bool) :
    EqualsJoined last gap x := by
  induction x generalizing last gap with
  | nil => trivial
  | cons c x ih =>
    rw [List.mem_cons, not_or] at h
    cases hc : isBlank c with
    | true =>
      rw [equalsJoined_cons_of_isBlank hc]
      exact ih h.2 last true
    | false =>
      rw [equalsJoined_cons hc]
      exact ⟨fun heq => absurd heq.symm h.1, ih h.2 (some c) false⟩

theorem equalsJoined_spaceFrom (hgap : gap = false ∨ last = some ',') (last' : Option Char)
    (gap' : Bool) (cs : List Char) : EqualsJoined last gap (spaceFrom last' gap' cs) := by
  induction cs generalizing last gap last' gap' with
  | nil => trivial
  | cons c rest ih =>
    cases hc : isBlank c with
    | true =>
      rw [spaceFrom, if_pos hc]
      exact ih hgap last' true
    | false =>
      have hrest : EqualsJoined (some c) false (spaceAfter c rest) := by
        unfold spaceAfter
        split
        · next hcomma =>
          exact ih (.inr (congrArg some (eq_of_beq hcomma))) (some ' ') false
        · exact ih (.inl rfl) (some c) false
      rw [spaceFrom_cons hc]
      split
      · next hjoint =>
        have hne : c ≠ '=' := by
          rintro rfl
          simp [show isWordChar '=' = false by decide +kernel] at hjoint
        rw [List.singleton_append, equalsJoined_cons_of_isBlank (by decide), equalsJoined_cons hc]
        exact ⟨fun heq => absurd heq hne, hrest⟩
      · rw [List.nil_append, equalsJoined_cons hc]
        exact ⟨fun _ htrue => hgap.resolve_left (by simp [htrue]), hrest⟩

theorem isPrefix_dropFinalSpace (x : List Char) : dropFinalSpace x <+: x := by
  unfold dropFinalSpace
  split
  · exact List.dropLast_prefix x
  · exact List.prefix_refl x

theorem EqualsJoined.dropFinalSpace (h : EqualsJoined last gap x) :
    EqualsJoined last gap (dropFinalSpace x) := by
  obtain ⟨rest, hrest⟩ := isPrefix_dropFinalSpace x
  rw [← hrest] at h
  exact h.append_left

theorem equalsJoined_normalize (x : List Char) : EqualsJoined none false (normalize x) :=
  (equalsJoined_spaceFrom (.inl rfl) none false x).dropFinalSpace

end EqualsJoined

theorem isWordChar_bracket : isWordChar '[' = false := by
  decide +kernel

theorem exists_normalize_bracket (x : List Char) : ∃ y, normalize ('[' :: x) = '[' :: y := by
  have hspaced : spaceFrom none false ('[' :: x) = '[' :: spaceAfter '[' x :=
    spaceFrom_cons (by decide) none false x
  rw [normalize, hspaced]
  unfold dropFinalSpace
  cases spaceAfter '[' x with
  | nil => exact ⟨[], rfl⟩
  | cons d rest =>
    split
    · exact ⟨(d :: rest).dropLast, rfl⟩
    · exact ⟨d :: rest, rfl⟩

theorem equalsJoined_normalize_bracket (x : List Char) (last : Option Char) (gap : Bool) :
    EqualsJoined last gap (normalize ('[' :: x)) := by
  obtain ⟨y, hy⟩ := exists_normalize_bracket x
  have hjoined := equalsJoined_normalize ('[' :: x)
  rw [hy] at hjoined ⊢
  exact ⟨fun heq => absurd heq (by decide), hjoined.2⟩

/-- An equals sign that follows a character at once still does so where blanks are put before equals
signs behind commas only. -/
theorem Respaced.head?_of_equalsJoined {free : Option Char → Char → Bool} {last : Option Char}
    {gap gap' : Bool} {x y : List Char} (h : Respaced free last gap gap' x y)
    (hx : x.head? = some '=') (hy : EqualsJoined last gap' y) :
    (gap' = true → last = some ',') ∧ (last ≠ some ',' → y.head? = some '=') := by
  induction h with
  | nil => cases hx
  | blankLeft hb =>
    cases hx
    cases hb
  | blankRight hb _ ih =>
    have hlast := (ih hx ((equalsJoined_cons_of_isBlank hb).mp hy)).1 rfl
    exact ⟨fun _ => hlast, fun hne => absurd hlast hne⟩
  | char hc =>
    cases hx
    exact ⟨((equalsJoined_cons hc).mp hy).1 rfl, fun _ => rfl⟩

theorem withoutBlanks_normalize (x : List Char) : withoutBlanks (normalize x) = withoutBlanks x :=
  (respaced_normalize x).withoutBlanks_eq.symm

end Text

/-! ## One argument -/

namespace Argument

open Text

section Default

variable {level : Int} {last : Option Char}

section Respaced

variable {gap gap' : Bool} {x y : List Char} {before before' : Option Char}

/-- An equals sign that begins a default value in a text that is spaced anew begins one in the text
itself. `last` is the last character that is not blank, and `before` and `before'` are the characters
that really stand before the equals sign. -/
theorem isCut_of_respaced {c : Char} {rest : List Char}
    (h : Respaced normalizeDrops (some c) false false x y)
    (hequals : c = '=' → gap' = true → last = some ',') (hy : EqualsJoined (some c) false y)
    (hbefore : before.any joinsEquals = (!gap && last.any joinsEquals))
    (hbefore' : before'.any joinsEquals = (!gap' && last.any joinsEquals))
    (hcut : IsCut level before' c (y ++ rest)) : IsCut level before c x := by
  obtain ⟨rfl, rfl, hlast, hhead⟩ := hcut
  refine ⟨rfl, rfl, ?_, fun hx => ?_⟩
  · cases hgap' : gap' with
    | false =>
      rw [hbefore', hgap', Bool.not_false, Bool.true_and] at hlast
      rw [hbefore, hlast, Bool.and_false]
    | true =>
      -- Only behind a comma, which makes no comparison, has a blank been put here.
      rw [hbefore, hequals rfl hgap']
      exact Bool.and_false _
  · have hy := (h.head?_of_equalsJoined hx hy).2 (by decide)
    exact hhead (by rw [List.head?_append, hy]; rfl)

theorem cutDefaultFrom_append_of_respaced (h : Respaced normalizeDrops last gap gap' x y)
    (hy : EqualsJoined last gap' y)
    (hbefore : before.any joinsEquals = (!gap && last.any joinsEquals))
    (hbefore' : before'.any joinsEquals = (!gap' && last.any joinsEquals))
    (hx : cutDefaultFrom level before x = none) (rest : List Char) :
    ∃ last', cutDefaultFrom level before' (y ++ rest)
      = (cutDefaultFrom (levelAfter level x) last' rest).map fun cut => (y ++ cut.1, cut.2) := by
  induction h generalizing level before before' with
  | nil => exact ⟨before', Option.map_id'.symm⟩
  | @blankLeft last gap gap' b x y hb h ih =>
    have hblank : (some b).any joinsEquals = (!true && last.any joinsEquals) :=
      joinsEquals_of_isBlank hb
    have hlevel : levelAfter level (b :: x) = levelAfter level x := by
      rw [levelAfter, List.foldl_cons, nestingStep_of_isBlank hb, Int.add_zero]
      rfl
    rw [cutDefaultFrom_cons_of_not (not_isCut_of_isBlank hb _ _ _), nestingStep_of_isBlank hb,
      Int.add_zero, Option.map_eq_none_iff] at hx
    rw [hlevel]
    exact ih hy hblank hbefore' hx
  | @blankRight last gap gap' b x y hb h ih =>
    have hblank : (some b).any joinsEquals = (!true && last.any joinsEquals) :=
      joinsEquals_of_isBlank hb
    obtain ⟨last', hlast'⟩ := ih ((equalsJoined_cons_of_isBlank hb).mp hy) hbefore hblank hx
    refine ⟨last', ?_⟩
    rw [List.cons_append, cutDefaultFrom_cons_of_not (not_isCut_of_isBlank hb _ _ _),
      nestingStep_of_isBlank hb, Int.add_zero, hlast', Option.map_map]
    rfl
  | @char last gap gap' c x y hc hgap h ih =>
    obtain ⟨hequals, hjoined⟩ := (equalsJoined_cons hc).mp hy
    have hcut : ¬ IsCut level before c x := by
      intro hcut
      rw [cutDefaultFrom_cons_of_isCut hcut] at hx
      cases hx
    have hcut' : ¬ IsCut level before' c (y ++ rest) :=
      mt (isCut_of_respaced h hequals hjoined hbefore hbefore') hcut
    rw [cutDefaultFrom_cons_of_not hcut, Option.map_eq_none_iff] at hx
    have hsolid : (some c).any joinsEquals = (!false && (some c).any joinsEquals) := rfl
    obtain ⟨last', hlast'⟩ := ih hjoined hsolid hsolid hx
    refine ⟨last', ?_⟩
    rw [List.cons_append, cutDefaultFrom_cons_of_not hcut', hlast', Option.map_map]
    rfl

end Respaced

end Default

/-! What is shown of an argument has the tokens of what was read. -/

section Tokens

variable {x : List Char}

theorem cutArray_eq (x : List Char) :
    cutArray x = (x, []) ∨
      ∃ before after, x = before ++ '[' :: after ∧ cutArray x = (trimEnd before, '[' :: after) := by
  unfold cutArray
  split
  · rw [cut_eq_scan]
    cases hcut : scan (stopAt '[') () x with
    | none => exact .inl rfl
    | some cut =>
      obtain ⟨c, ⟨_, hstop⟩, hx⟩ := eq_append_of_scan hcut
      obtain rfl := eq_of_stopAt hstop
      exact .inr ⟨cut.1, cut.2, hx, rfl⟩
  · exact .inl rfl

theorem tokens_cutArray (x : List Char) :
    tokens (cutArray x).1 ++ tokens (cutArray x).2 = tokens x := by
  rcases cutArray_eq x with hcut | ⟨before, after, hx, hcut⟩
  · simp [hcut, tokens]
  · rw [hcut, hx, tokens_trimEnd, tokens_append_cons isWordChar_bracket]

theorem tokens_cutName (x : List Char) :
    tokens (cutName x).1 ++ tokens (cutName x).2 = tokens x := by
  by_cases hname : (cutName x).2 = []
  · rw [hname, Substitution.cutName_of_unnamed hname]
    simp [tokens]
  · obtain ⟨before, word, rfl, hcut, -, -, hlast⟩ := Substitution.cutName_of_named hname
    rw [hcut, tokens_trimEnd]
    exact (tokens_append (.inl hlast)).symm

end Tokens

/-- A declaration as it is shown without its default value. -/
def shown (declaration : List Char) : List Char :=
  let (declaration, array) := cutArray (trim declaration)
  let (type, name) := cutName declaration
  normalize type ++ (if name = [] then [] else ' ' :: name) ++ normalize array

theorem tokens_shown (declaration : List Char) : tokens (shown declaration) = tokens declaration := by
  unfold shown
  have harray := cutArray_eq (trim declaration)
  have htokens := tokens_cutArray (trim declaration)
  generalize cutArray (trim declaration) = cut at harray htokens
  have hbracket : (normalize cut.2).head?.any isWordChar = false := by
    rcases harray with rfl | ⟨_, after, -, rfl⟩
    · rfl
    · obtain ⟨y, hy⟩ := exists_normalize_bracket after
      rw [hy]
      exact isWordChar_bracket
  have hname : tokens (if (cutName cut.1).2 = [] then [] else ' ' :: (cutName cut.1).2)
      = tokens (cutName cut.1).2 := by
    split
    · next hempty => rw [hempty]
    · exact tokens_cons_of_isBlank (by decide) _
  have hspace : (if (cutName cut.1).2 = [] then [] else ' ' :: (cutName cut.1).2).head?.any
      isWordChar = false := by
    split
    · rfl
    · exact isWordChar_space
  rw [tokens_append (.inr hbracket), tokens_append (.inr hspace), hname, tokens_normalize,
    tokens_normalize, tokens_cutName, htokens, tokens_trim]

theorem equalsJoined_shown (declaration : List Char) :
    EqualsJoined none false (shown declaration) := by
  unfold shown
  dsimp only
  have harray := cutArray_eq (trim declaration)
  generalize cutArray (trim declaration) = cut at harray
  refine ((equalsJoined_normalize _).append ?_).append ?_
  · refine equalsJoined_of_notMem ?_
    split
    · exact List.not_mem_nil
    · next hname =>
      obtain ⟨before, word, -, hcut, -, hword, -⟩ := Substitution.cutName_of_named hname
      rw [hcut]
      intro hmem
      rcases List.mem_cons.mp hmem with heq | hmem
      · cases heq
      · exact absurd (hword _ hmem) (by decide +kernel)
  · rcases harray with rfl | ⟨_, after, -, rfl⟩
    · exact fun _ _ => trivial
    · exact equalsJoined_normalize_bracket after

theorem cutDefaultFrom_shown_append {declaration : List Char}
    (h : cutDefaultFrom 0 none declaration = none) (rest : List Char) :
    ∃ last, cutDefaultFrom 0 none (shown declaration ++ rest)
      = (cutDefaultFrom (levelAfter 0 declaration) last rest).map fun cut =>
          (shown declaration ++ cut.1, cut.2) := by
  have hstart : (none : Option Char).any joinsEquals
      = (!false && (none : Option Char).any joinsEquals) := rfl
  exact cutDefaultFrom_append_of_respaced (respaced_of_tokens_eq (tokens_shown declaration).symm)
    (equalsJoined_shown declaration) hstart hstart h rest

theorem normalize_ne_nil {x : List Char} (h : withoutBlanks x ≠ []) : normalize x ≠ [] := by
  intro hempty
  rw [← withoutBlanks_normalize, hempty] at h
  exact h rfl

theorem toList_text_ofDeclaration (declaration value : List Char) :
    (ofDeclaration declaration value).text.toList
      = shown declaration
        ++ if normalize value = [] then [] else ' ' :: '=' :: ' ' :: normalize value := by
  unfold ofDeclaration shown text
  generalize cutArray (trim declaration) = cut
  have htype : (cutName cut.1).2 ≠ [] → normalize (cutName cut.1).1 ≠ [] := by
    intro hname
    obtain ⟨before, word, -, hcut, hisName, -, -⟩ := Substitution.cutName_of_named hname
    rw [hcut]
    refine normalize_ne_nil ?_
    have hbefore := (Substitution.isName_iff.mp hisName).1.1
    rwa [Ne, trimEnd_eq_nil_iff, ← withoutBlanks_trimEnd] at hbefore
  have hempty (x : List Char) : String.ofList x = "" ↔ x = [] := by
    rw [← String.toList_inj, String.toList_ofList]
    rfl
  by_cases hname : (cutName cut.1).2 = []
  · by_cases hvalue : normalize value = []
    · simp [hname, hvalue]
    · simp [hempty, hname, hvalue]
  · by_cases hvalue : normalize value = []
    · simp [hempty, hname, hvalue, htype hname]
    · simp [hempty, hname, hvalue, htype hname]

theorem tokens_append_equals (x y : List Char) :
    tokens (x ++ '=' :: y) = tokens x ++ ['='] :: tokens y := by
  have hequals : isWordChar '=' = false := by decide +kernel
  rw [tokens_append_cons hequals, tokens_cons_of_symbol hequals (by decide)]

/-- An argument is read back from its own text. -/
theorem read_text_read {part : List Char}
    (h : ∀ split ∈ cutDefaultFrom 0 none part, trim split.2 ≠ []) :
    read (read part).text.toList = read part ∧ tokens (read part).text.toList = tokens part := by
  cases hcut : cutDefaultFrom 0 none part with
  | none =>
    have hread : read part = ofDeclaration part [] := by rw [read, cutDefault, hcut]; rfl
    have htext : (read part).text.toList = shown part := by
      rw [hread, toList_text_ofDeclaration]
      exact List.append_nil _
    obtain ⟨last', hnone⟩ := cutDefaultFrom_shown_append hcut []
    rw [List.append_nil] at hnone
    refine ⟨?_, by rw [htext, tokens_shown]⟩
    rw [htext, read, cutDefault, hnone, hread]
    exact ofDeclaration_alike (respaced_of_tokens_eq (tokens_shown part)) rfl
  | some cut =>
    obtain ⟨declaration, value⟩ := cut
    obtain ⟨hpart, hnone, hlevel⟩ := cutDefaultFrom_eq_some hcut
    have hvalue : normalize value ≠ [] := by
      refine normalize_ne_nil ?_
      rw [Ne, ← trim_eq_nil_iff]
      exact h _ hcut
    have hread : read part = ofDeclaration declaration value := by
      rw [read, cutDefault, hcut]
      rfl
    have htext : (read part).text.toList
        = shown declaration ++ ' ' :: '=' :: ' ' :: normalize value := by
      rw [hread, toList_text_ofDeclaration, if_neg hvalue]
    have hspace : tokens (shown declaration ++ [' ']) = tokens declaration := by
      rw [tokens_append_cons isWordChar_space, tokens_shown, tokens_cons_of_isBlank (by decide)]
      simp [tokens]
    have hvalues : tokens (' ' :: normalize value) = tokens value := by
      rw [tokens_cons_of_isBlank (by decide), tokens_normalize]
    obtain ⟨last', hsome⟩ := cutDefaultFrom_shown_append hnone (' ' :: '=' :: ' ' :: normalize value)
    rw [hlevel] at hsome
    constructor
    · rw [htext, read, cutDefault, hsome, hread]
      exact ofDeclaration_alike (respaced_of_tokens_eq hspace)
        (respaced_of_tokens_eq hvalues).normalize_eq
    · rw [htext, List.append_cons, tokens_append_equals, hspace, hvalues, hpart,
        tokens_append_equals]

end Argument

/-! ## Argument lists -/

namespace Signature

open Text

/-- A text that can be an entry of a list, and is read as the given argument there. -/
structure ReadsAs (x : List Char) (a : Argument) : Prop where
  isEntry : IsEntry x
  isSolid : trim x ≠ []
  read_trim_eq : Argument.read (trim x) = a

theorem read_trim {x : List Char} (h : IsEntry x) : Argument.read (trim x) = Argument.read x :=
  (Argument.read_alike (respaced_trim (fun _ => rfl) false false x) h.staysAbove).symm

theorem readsAs_text_read {part : List Char} (hentry : IsEntry part)
    (hsolid : withoutBlanks part ≠ [])
    (hvalue : ∀ split ∈ Argument.cutDefaultFrom 0 none part, trim split.2 ≠ []) :
    ReadsAs (Argument.read part).text.toList (Argument.read part) := by
  obtain ⟨hread, htokens⟩ := Argument.read_text_read hvalue
  have hspaced := respaced_of_tokens_eq htokens.symm
  have hshown : IsEntry (Argument.read part).text.toList := hentry.respaced hspaced
  refine ⟨hshown, ?_, ?_⟩
  · rwa [Ne, trim_eq_nil_iff, ← hspaced.withoutBlanks_eq]
  · rw [read_trim hshown, hread]

/-- The qualifiers that are shown behind an argument list. -/
def shownQualifiers (s : Signature) : List Char :=
  (if s.isConst then " const".toList else []) ++ (if s.isVolatile then " volatile".toList else [])
    ++ (if s.isPure then "=0".toList else [])

theorem toList_text (s : Signature) :
    s.text.toList = '(' :: (List.intercalate [',', ' '] (s.arguments.map fun a => a.text.toList)
      ++ ')' :: shownQualifiers s) := by
  have hopen : "(".toList = ['('] := rfl
  have hclose : ")".toList = [')'] := rfl
  have hcomma : ", ".toList = [',', ' '] := rfl
  have hempty : "".toList = [] := rfl
  unfold text shownQualifiers joinWith
  simp only [String.toList_append, String.toList_intercalate, apply_ite String.toList, List.map_map,
    hopen, hclose, hcomma, hempty, List.append_assoc, List.cons_append, List.nil_append,
    Function.comp_def]

theorem qualifiers_shown (s : Signature) :
    let qualifiers := (runs isWordChar (normalize s.shownQualifiers)).map String.ofList
    qualifiers.contains "const" = s.isConst ∧ qualifiers.contains "volatile" = s.isVolatile ∧
      ['=', '0'].isSuffixOf ((normalize s.shownQualifiers).filter fun c => c != ' ') = s.isPure := by
  unfold shownQualifiers
  cases s.isConst <;> cases s.isVolatile <;> cases s.isPure <;> decide +kernel

theorem trimmedParts_intercalate {xs : List (List Char)}
    (h : ∀ x ∈ xs, IsEntry x ∧ trim x ≠ []) :
    trimmedParts (List.intercalate [',', ' '] xs) = xs.map trim := by
  unfold trimmedParts splitTopLevel
  cases xs with
  | nil => rfl
  | cons x xs =>
    rw [map_trim_splitFrom_intercalate (h x List.mem_cons_self).1 fun y hy =>
      (h y (List.mem_cons_of_mem _ hy)).1, List.filter_eq_self]
    intro part hpart
    obtain ⟨y, hy, rfl⟩ := List.mem_map.mp hpart
    simpa using (h y hy).2

/-- Arguments that are read as they are shown are read so from the list of them, unless this is a
lone `void`. -/
theorem map_read_argumentParts {shown : Argument → List Char} {arguments : List Argument}
    (h : ∀ a ∈ arguments, ReadsAs (shown a) a)
    (hvoid : arguments.map (fun a => trim (shown a)) ≠ ["void".toList]) :
    (argumentParts (List.intercalate [',', ' '] (arguments.map shown))).map Argument.read
      = arguments := by
  have hentries : ∀ x ∈ arguments.map shown, IsEntry x ∧ trim x ≠ [] := by
    intro x hx
    obtain ⟨a, ha, rfl⟩ := List.mem_map.mp hx
    exact ⟨(h a ha).isEntry, (h a ha).isSolid⟩
  have hread : ∀ a ∈ arguments, Argument.read (trim (shown a)) = id a := fun a ha =>
    (h a ha).read_trim_eq
  rw [argumentParts_eq, trimmedParts_intercalate hentries, List.map_map, Function.comp_def,
    if_neg hvoid, List.map_map, Function.comp_def, List.map_congr_left hread, List.map_id]

theorem read_text_of_readsAs {s : Signature} (h : ∀ a ∈ s.arguments, ReadsAs a.text.toList a)
    (hvoid : s.arguments.map (fun a => trim a.text.toList) ≠ ["void".toList]) :
    read s.text = s := by
  have hread := map_read_argumentParts h hvoid
  have hclosed : stateAfter closeStep 0
      (List.intercalate [',', ' '] (s.arguments.map fun a => a.text.toList)) = some 0 := by
    refine stateAfter_intercalate fun x hx => ?_
    obtain ⟨a, ha, rfl⟩ := List.mem_map.mp hx
    exact (h a ha).isEntry
  obtain ⟨hconst, hvolatile, hpure⟩ := qualifiers_shown s
  rw [read_eq_ofText, toList_text]
  generalize List.intercalate [',', ' '] (s.arguments.map fun a => a.text.toList) = inner
    at hread hclosed
  have hopen : cut ['('] ('(' :: (inner ++ ')' :: shownQualifiers s))
      = some ([], inner ++ ')' :: shownQualifiers s) := by
    rw [cut_eq_scan, scan_cons_of_none rfl]
  have hclose : cutAtClose (inner ++ ')' :: shownQualifiers s) = (inner, shownQualifiers s) := by
    rw [cutAtClose, closeFrom_eq_scan, scan_append_of_stateAfter hclosed, scan_cons_of_none rfl]
    simp
  unfold ofText
  rw [hopen]
  dsimp only
  rw [hclose]
  rw [hread, hconst, hvolatile, hpure]

theorem isEntry_of_mem_argumentParts {inner part : List Char}
    (hinner : stateAfter closeStep 0 inner = some 0) (h : part ∈ argumentParts inner) :
    IsEntry part ∧ withoutBlanks part ≠ [] ∧ ∃ x, part = trim x := by
  have hpart : part ∈ trimmedParts inner := by
    rw [argumentParts_eq] at h
    split at h
    · cases h
    · exact h
  obtain ⟨hmem, hne⟩ := List.mem_filter.mp hpart
  obtain ⟨x, hx, rfl⟩ := List.mem_map.mp hmem
  have htrim : Alike normalizeDrops x (trim x) :=
    respaced_trim (fun _ => rfl) false false x
  have hsolid : trim x ≠ [] := by simpa using hne
  refine ⟨(isEntry_of_mem_splitFrom hinner hx).respaced htrim, ?_, x, rfl⟩
  rwa [← htrim.withoutBlanks_eq, Ne, ← trim_eq_nil_iff]

theorem argumentParts_ne_void (inner : List Char) : argumentParts inner ≠ ["void".toList] := by
  rw [argumentParts_eq]
  split
  · simp
  · assumption

theorem eq_void_of_tokens_eq {part x : List Char} (hpart : ∃ y, part = trim y)
    (htokens : tokens x = tokens part) (h : trim x = "void".toList) : part = "void".toList := by
  obtain ⟨y, rfl⟩ := hpart
  have hspaced : Alike normalizeDrops "void".toList (trim y) := by
    refine respaced_of_tokens_eq ?_
    rw [← h, tokens_trim, htokens]
  exact hspaced.eq_of_word isWordChar_of_mem_void (by decide)

/-- Showing an argument list and reading it again gives the same list, for every text in which the
first parenthesis is closed and no argument ends with the equals sign of a default value. Each
argument is shown with the tokens that it was read from. -/
theorem read_text_eq (text : String) {before afterOpen inner trailing : List Char}
    (hopen : cut ['('] text.toList = some (before, afterOpen))
    (hclose : closeFrom 0 afterOpen = some (inner, trailing))
    (hvalues : ∀ part ∈ argumentParts inner, ∀ split ∈ Argument.cutDefaultFrom 0 none part,
      trim split.2 ≠ []) :
    read (read text).text = read text ∧
      (read text).arguments.map (fun a => tokens a.text.toList)
        = (argumentParts inner).map tokens := by
  have hclosed := stateAfter_of_closeFrom hclose
  have harguments : (read text).arguments = (argumentParts inner).map Argument.read := by
    rw [read_eq_ofText]
    unfold ofText
    rw [hopen]
    dsimp only
    rw [cutAtClose, hclose]
    rfl
  have htokens (part : List Char) (hpart : part ∈ argumentParts inner) :
      tokens (Argument.read part).text.toList = tokens part :=
    (Argument.read_text_read (hvalues part hpart)).2
  refine ⟨read_text_of_readsAs ?_ ?_, ?_⟩
  · rw [harguments]
    intro a ha
    obtain ⟨part, hpart, rfl⟩ := List.mem_map.mp ha
    obtain ⟨hentry, hsolid, -⟩ := isEntry_of_mem_argumentParts hclosed hpart
    exact readsAs_text_read hentry hsolid (hvalues part hpart)
  · intro hvoid
    rw [harguments, List.map_map, Function.comp_def] at hvoid
    obtain ⟨part, hparts, hshown⟩ := List.map_eq_singleton_iff.mp hvoid
    have hpart : part ∈ argumentParts inner := by
      rw [hparts]
      exact List.mem_singleton_self part
    have hword := eq_void_of_tokens_eq (isEntry_of_mem_argumentParts hclosed hpart).2.2
      (htokens part hpart) hshown
    rw [hword] at hparts
    exact argumentParts_ne_void inner hparts
  · rw [harguments, List.map_map]
    exact List.map_congr_left htokens

/-- An array suffix, a comparison in a default value, brackets of several kinds and qualifiers. -/
theorem read_text_eq_mixed :
    cut ['('] "f (bool a [ 2 ]=x == y, T< int,char >&t ,...)const = 0".toList
        = some ("f ".toList, "bool a [ 2 ]=x == y, T< int,char >&t ,...)const = 0".toList) ∧
      closeFrom 0 "bool a [ 2 ]=x == y, T< int,char >&t ,...)const = 0".toList
        = some ("bool a [ 2 ]=x == y, T< int,char >&t ,...".toList, "const = 0".toList) ∧
      (∀ part ∈ argumentParts "bool a [ 2 ]=x == y, T< int,char >&t ,...".toList,
        ∀ split ∈ Argument.cutDefaultFrom 0 none part, trim split.2 ≠ []) ∧
      (read "f (bool a [ 2 ]=x == y, T< int,char >&t ,...)const = 0").text
        = "(bool a[2] = x==y, T<int, char>& t, ...) const=0" ∧
      read (read "f (bool a [ 2 ]=x == y, T< int,char >&t ,...)const = 0").text
        = read "f (bool a [ 2 ]=x == y, T< int,char >&t ,...)const = 0" := by
  refine ⟨?hopen, ?hclose, ?hvalues, ?htext, (read_text_eq _ ?hopen ?hclose ?hvalues).1⟩
  all_goals decide +kernel

end Signature

end SymbolAtlas
