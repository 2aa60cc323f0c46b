import Mathlib.Data.List.Chain
import Mathlib.Data.List.Infix
import SymbolAtlas.Proofs.Signature.Replacement

/-!
# Reading an argument list in which identifiers were replaced

An argument list that is read after identifiers in it were replaced has the arguments of the list as
it was, with the identifiers replaced in their types and array suffixes. This asks that nothing that
is put in is taken for the name of an argument or for an empty list, and that blanks do not tear
qualified names apart, as canonical spacing joins these.
-/

set_option autoImplicit false

namespace SymbolAtlas.Substitution

variable {x y t : List Char} {c : Char}

open Text

/-! ## Qualified names -/

/-- No blank stands next to a colon. -/
def IsTight (cs : List Char) : Prop :=
  cs.IsChain fun c d => (c = ':' → isBlank d = false) ∧ (d = ':' → isBlank c = false)

instance (cs : List Char) : Decidable (IsTight cs) :=
  inferInstanceAs (Decidable (List.IsChain _ cs))

theorem IsTight.of_isInfix (h : IsTight y) (hx : x <:+: y) : IsTight x :=
  List.IsChain.infix h hx

/-- Where normalization drops blanks of a text in which none stands next to a colon. -/
def tightDrops (last : Option Char) (c : Char) : Bool :=
  normalizeDrops last c && !(last.any continuesIdentifier && continuesIdentifier c)

theorem isWordChar_of_continuesIdentifier (h : continuesIdentifier c = true) (hc : c ≠ ':') :
    isWordChar c = true := by
  unfold continuesIdentifier at h
  unfold isWordChar isAlphanumeric
  simp [hc] at h
  rcases h with h | h <;> simp [h]

theorem isWordChar_of_beginsIdentifier (h : beginsIdentifier c = true) : isWordChar c = true := by
  refine isWordChar_of_continuesIdentifier (continuesIdentifier_of_begins h) ?_
  rintro rfl
  exact absurd h (by decide)

theorem keepsApart_tightDrops : KeepsApart tightDrops := by
  intro last c h
  have hapart := (Bool.and_eq_true_iff.mp h).2
  cases last with
  | none => exact .inl rfl
  | some d => cases hc : continuesIdentifier c <;> simp_all

theorem respaced_tight_spaceFrom {last last' : Option Char}
    (hlast : last'.any isWordChar = last.any isWordChar) {gap' : Bool}
    (hgap' : gap' = true → last = some ',') (gap : Bool) {cs : List Char} (hcs : IsTight cs)
    (hbefore : if gap then last ≠ some ':' ∧ cs.head? ≠ some ':'
      else last = some ':' → ∀ c ∈ cs.head?, isBlank c = false) :
    Respaced tightDrops last gap gap' cs (spaceFrom last' gap cs) := by
  induction cs generalizing last last' gap gap' with
  | nil => exact .nil last gap gap'
  | cons c rest ih =>
    obtain ⟨hnext, hrest⟩ := List.isChain_cons.mp hcs
    cases hc : isBlank c with
    | true =>
      rw [spaceFrom, if_pos hc]
      refine .blankLeft hc (ih hlast hgap' true hrest ⟨?_, fun hcolon => ?_⟩)
      · intro hcolon
        cases gap with
        | true => exact hbefore.1 hcolon
        | false => exact absurd ((hbefore hcolon c rfl).symm.trans hc) Bool.false_ne_true
      · exact absurd (((hnext ':' hcolon).2 rfl).symm.trans hc) Bool.false_ne_true
    | false =>
      have hbehind : some c = some ':' → ∀ d ∈ rest.head?, isBlank d = false := fun hcolon d hd =>
        (hnext d hd).1 (Option.some.inj hcolon)
      have htail : Respaced tightDrops (some c) false false rest (spaceAfter c rest) := by
        unfold spaceAfter
        split
        · next hcomma =>
          obtain rfl := eq_of_beq hcomma
          exact .blankRight (by decide) (ih (by decide) (fun _ => rfl) false hrest hbehind)
        · exact ih rfl (fun h => absurd h Bool.false_ne_true) false hrest hbehind
      rw [spaceFrom_cons hc, hlast]
      split
      · have hgap : gap = true := by simp_all
        exact .blankRight (by decide) (.char hc (.inl hgap) htail)
      · next hjoint =>
        refine .char hc ?_ htail
        cases gap with
        | false =>
          cases gap' with
          | false => exact .inl rfl
          | true =>
            rw [hgap' rfl]
            exact .inr (by simp [tightDrops, normalizeDrops, show isWordChar ',' = false by decide,
              show continuesIdentifier ',' = false by decide])
        | true =>
          -- Neither of the two characters is a colon, so that both are word characters or free.
          obtain ⟨hcolon, hfirst⟩ := hbefore
          have hc' : c ≠ ':' := fun h => hfirst (congrArg some h)
          refine .inr ?_
          have hfree : (last.any isWordChar && isWordChar c) = false := by simpa using hjoint
          have hapart : (last.any continuesIdentifier && continuesIdentifier c) = false := by
            by_contra hjoined
            rw [Bool.not_eq_false, Bool.and_eq_true, Option.any_eq_true] at hjoined
            obtain ⟨⟨d, rfl, hd⟩, hcontinues⟩ := hjoined
            have hword := isWordChar_of_continuesIdentifier hd fun h => hcolon (congrArg some h)
            have hword' := isWordChar_of_continuesIdentifier hcontinues hc'
            simp [hword, hword'] at hfree
          rw [tightDrops, normalizeDrops, hfree, hapart]
          rfl

theorem respaced_tight_normalize {cs : List Char} (h : IsTight cs) :
    Respaced tightDrops none false false cs (normalize cs) := by
  have hspaced : Respaced tightDrops none false false cs (spaceFrom none false cs) :=
    respaced_tight_spaceFrom rfl (fun h => absurd h Bool.false_ne_true) false h
      fun hcolon => absurd hcolon (Option.some_ne_none _).symm
  exact hspaced.trans (respaced_dropFinalSpace tightDrops none false _)

section Replaced

variable {f : List Char → List Char}
variable {cs inner : List Char} {cs' : List Char}

theorem respaced_mapIdentifiers_normalize (hf : ClosesOff f) (h : IsTight cs) :
    Alike normalizeDrops (mapIdentifiers f cs)
      (mapIdentifiers f (normalize cs)) := by
  refine respaced_mapIdentifiers keepsApart_tightDrops ?_ ?_ hf (respaced_tight_normalize h)
  · intro last c hfree
    exact (Bool.and_eq_true_iff.mp hfree).1
  · intro last c d hc hfree
    have hdrops : normalizeDrops last c = true := (Bool.and_eq_true_iff.mp hfree).1
    have hlast : last.any isWordChar = false := by
      simpa [normalizeDrops, isWordChar_of_beginsIdentifier hc] using hdrops
    rw [normalizeDrops, hlast]
    rfl

theorem respaced_mapIdentifiers_tidy (hf : ClosesOff f) {last : Option Char} {gap gap' : Bool}
    (h : Respaced tidyDrops last gap gap' x y) :
    Respaced tidyDrops last gap gap' (mapIdentifiers f x) (mapIdentifiers f y) := by
  refine respaced_mapIdentifiers keepsApart_tidyDrops (fun _ _ => id) ?_ hf h
  intro last c d hc hfree
  have hne {e : Char} (he : continuesIdentifier e = false) : c ≠ e :=
    ne_of_continuesIdentifier (continuesIdentifier_of_begins hc) he
  unfold tidyDrops at hfree ⊢
  simp [hne (by decide : continuesIdentifier ',' = false),
    hne (by decide : continuesIdentifier ')' = false),
    hne (by decide : continuesIdentifier '>' = false),
    hne (by decide : continuesIdentifier ']' = false)] at hfree
  simp [hfree]

/-! ## How a text ends -/

theorem withoutBlanks_mapIdentifiers_eq_nil_iff (hf : PutsTypes f) :
    withoutBlanks (mapIdentifiers f cs) = [] ↔ withoutBlanks cs = [] := by
  fun_induction mapIdentifiers f cs with
  | case1 => exact Iff.rfl
  | case2 c rest hc ih =>
    have hsolid := isBlank_of_continuesIdentifier (continuesIdentifier_of_begins hc)
    have hput := hf.withoutBlanks_ne_nil (isIdentifier_takeWhile hc rest)
    have hself : withoutBlanks (c :: rest) ≠ [] := by simp [withoutBlanks, hsolid]
    rw [withoutBlanks_append, List.append_eq_nil_iff]
    exact iff_of_false (fun h => hput h.1) hself
  | case3 c rest hc ih =>
    unfold withoutBlanks at ih ⊢
    by_cases hb : isBlank c = true <;> simp [hb, ih]

theorem notMem_of_isNestedFrom {level : Nat} (h : isNestedFrom level t = true) : ']' ∉ t := by
  induction t generalizing level with
  | nil => exact List.not_mem_nil
  | cons c t ih =>
    obtain ⟨next, -, ht, -, hc, -⟩ := isNestedFrom_cons h
    rw [List.mem_cons, not_or]
    exact ⟨hc.symm, ih ht⟩

theorem IsInert.getLast?_ne (h : IsInert t) : (withoutBlanks t).getLast? ≠ some ']' := by
  intro hlast
  exact notMem_of_isNestedFrom h.isNested (List.mem_of_mem_filter (List.mem_of_getLast? hlast))

/-- The first text ends in the same character as the second one, or as something that can stand for
a type. -/
def EndsAs (x y : List Char) : Prop :=
  (withoutBlanks x).getLast? = (withoutBlanks y).getLast? ∨
    ∃ t, IsInert t ∧ (withoutBlanks x).getLast? = (withoutBlanks t).getLast?

theorem EndsAs.append {x' y' : List Char} (h : EndsAs x y) (h' : EndsAs x' y')
    (hempty : withoutBlanks x' = [] ↔ withoutBlanks y' = []) : EndsAs (x ++ x') (y ++ y') := by
  unfold EndsAs at h h' ⊢
  rw [withoutBlanks_append, withoutBlanks_append, List.getLast?_append, List.getLast?_append]
  by_cases hx : withoutBlanks x' = []
  · rw [hx, hempty.mp hx, List.getLast?_nil]
    exact h
  · have hor {z : List Char} (hz : z ≠ []) (last : Option Char) : z.getLast?.or last = z.getLast? := by
      obtain ⟨c, hc⟩ := Option.ne_none_iff_exists'.mp (mt List.getLast?_eq_none_iff.mp hz)
      rw [hc, Option.some_or]
    rw [hor hx, hor (mt hempty.mpr hx)]
    exact h'

theorem endsAs_mapIdentifiers (hf : PutsTypes f) (cs : List Char) :
    EndsAs (mapIdentifiers f cs) cs := by
  fun_induction mapIdentifiers f cs with
  | case1 => exact .inl rfl
  | case2 c rest hc ih =>
    have hx := isIdentifier_takeWhile hc rest
    have hput : EndsAs (f (c :: rest.takeWhile continuesIdentifier))
        (c :: rest.takeWhile continuesIdentifier) := by
      rcases hf.isInert hx with heq | hinert
      · exact .inl (by rw [heq])
      · exact .inr ⟨_, hinert, rfl⟩
    rw [cons_eq_identifier_append c rest]
    exact hput.append ih (withoutBlanks_mapIdentifiers_eq_nil_iff hf)
  | case3 c rest hc ih =>
    have hself : EndsAs [c] [c] := .inl rfl
    exact hself.append ih (withoutBlanks_mapIdentifiers_eq_nil_iff hf)

theorem mapIdentifiers_congr {g : List Char → List Char} (h : ∀ x ∈ identifiers cs, f x = g x) :
    mapIdentifiers f cs = mapIdentifiers g cs := by
  fun_induction mapIdentifiers f cs with
  | case1 => rw [mapIdentifiers]
  | case2 c rest hc ih =>
    rw [identifiers, if_pos hc] at h
    rw [mapIdentifiers, if_pos hc, h _ List.mem_cons_self,
      ih fun x hx => h x (List.mem_cons_of_mem _ hx)]
  | case3 c rest hc ih =>
    rw [identifiers, if_neg hc] at h
    rw [mapIdentifiers, if_neg hc, ih h]

theorem mapIdentifiers_eq_of_fixed (h : ∀ x ∈ identifiers cs, f x = x) : mapIdentifiers f cs = cs :=
  (mapIdentifiers_congr h).trans (mapIdentifiers_eq_self (fun _ => rfl) cs)

/-! ## Array suffix and name -/

open Argument

theorem respaced_mapIdentifiers_trim (hf : ClosesOff f) (cs : List Char) :
    Alike tidyDrops (mapIdentifiers f (trim cs)) (mapIdentifiers f cs) :=
  (respaced_mapIdentifiers_tidy hf (respaced_trim (fun _ => rfl) false false cs)).symm

theorem respaced_mapIdentifiers_trimEnd (hf : ClosesOff f) (cs : List Char) :
    Alike normalizeDrops (mapIdentifiers f (trimEnd cs))
      (trimEnd (mapIdentifiers f cs)) := by
  have hinside := respaced_mapIdentifiers_tidy hf (respaced_trimEnd tidyDrops none false cs)
  exact (hinside.symm.trans (respaced_trimEnd tidyDrops none false _)).mono
    fun _ _ => normalizeDrops_of_tidyDrops

theorem cutArray_mapIdentifiers (hf : PutsTypes f) (hcs : EndsSolid cs) :
    Alike normalizeDrops (mapIdentifiers f (cutArray cs).1)
        (cutArray (trim (mapIdentifiers f cs))).1 ∧
      Alike normalizeDrops (mapIdentifiers f (cutArray cs).2)
        (cutArray (trim (mapIdentifiers f cs))).2 := by
  have htrim : Alike normalizeDrops (mapIdentifiers f cs)
      (trim (mapIdentifiers f cs)) := respaced_trim (fun _ => rfl) false false _
  by_cases hlast : cs.getLast? = some ']'
  · have hlast' : (mapIdentifiers f cs).getLast? = some ']' := by
      obtain ⟨u, rfl⟩ := List.getLast?_eq_some_iff.mp hlast
      rw [mapIdentifiers_append_cons (by decide), mapIdentifiers, List.getLast?_concat]
    have hsolid : EndsSolid (mapIdentifiers f cs) := by
      intro c hc
      rw [hlast'] at hc
      cases hc
      decide
    obtain ⟨hbefore, harray⟩ := cutArray_alike htrim hsolid (endsSolid_trimEnd _)
    suffices hcut : Alike normalizeDrops (mapIdentifiers f (cutArray cs).1)
          (cutArray (mapIdentifiers f cs)).1 ∧
        mapIdentifiers f (cutArray cs).2 = (cutArray (mapIdentifiers f cs)).2 from
      ⟨hcut.1.trans hbefore, hcut.2 ▸ harray⟩
    unfold cutArray
    rw [hlast, hlast', cut_eq_scan, cut_eq_scan,
      scan_mapIdentifiers ignoresTypes_stopAt hf trivial]
    cases scan (stopAt '[') () cs with
    | none => exact ⟨.refl normalizeDrops none false _, mapIdentifiers.eq_1 f⟩
    | some cut =>
      exact ⟨respaced_mapIdentifiers_trimEnd hf.closesOff cut.1,
        mapIdentifiers_cons_of_ends (by decide) f cut.2⟩
  · have hlast' : (trim (mapIdentifiers f cs)).getLast? ≠ some ']' := by
      rw [getLast?_trim]
      rw [hcs.getLast?_eq] at hlast
      rcases endsAs_mapIdentifiers hf cs with heq | ⟨t, ht, heq⟩
      · rwa [heq]
      · rw [heq]
        exact ht.getLast?_ne
    unfold cutArray
    rw [if_neg (by simpa using hlast), if_neg (by simpa using hlast'), mapIdentifiers]
    exact ⟨htrim, .nil none false false⟩

section Name

variable {cs : List Char}
variable {before : List Char} {word : List Char}

theorem cutName_of_named (h : (cutName cs).2 ≠ []) :
    ∃ before word, cs = before ++ word ∧ cutName cs = (trimEnd before, word) ∧
      isName (trimEnd before) word = true ∧ (∀ c ∈ word, isWordChar c = true) ∧
      before.getLast?.any isWordChar = false := by
  unfold cutName at h
  dsimp only at h
  split at h
  · next hname =>
    refine ⟨_, _, (cutFinalWord_append cs).symm, ?_, hname, fun c => isWordChar_of_mem_cutFinalWord,
      getLast?_cutFinalWord cs⟩
    unfold cutName
    dsimp only
    rw [if_pos hname]
  · exact absurd rfl h

theorem cutName_of_unnamed (h : (cutName cs).2 = []) : (cutName cs).1 = cs := by
  unfold cutName at h ⊢
  dsimp only at h ⊢
  split
  · next hname =>
    rw [if_pos hname] at h
    simp [isName, show (cutFinalWord cs).2 = [] from h] at hname
  · rfl

theorem cutName_append (hname : isName (trimEnd before) word = true)
    (hword : ∀ c ∈ word, isWordChar c = true) (hbefore : before.getLast?.any isWordChar = false) :
    cutName (before ++ word) = (trimEnd before, word) := by
  unfold cutName
  rw [cutFinalWord_eq hword hbefore]
  exact if_pos hname

theorem isName_iff : isName before word = true ↔ (before ≠ [] ∧ before.getLast? ≠ some ':') ∧
      (word ≠ [] ∧ word.head?.any Char.isDigit = false ∧
        typeWords.contains (String.ofList word) = false) := by
  unfold isName
  simp only [Bool.and_eq_true, Bool.not_eq_true', List.isEmpty_eq_false_iff, bne_iff_ne]
  tauto

theorem exists_eq_concat_of_isName (hname : isName (trimEnd before) word = true)
    (hlast : before.getLast?.any isWordChar = false) :
    ∃ start d, before = start ++ [d] ∧ continuesIdentifier d = false := by
  obtain ⟨⟨hsolid, hcolon⟩, -⟩ := isName_iff.mp hname
  rcases List.eq_nil_or_concat before with rfl | ⟨start, d, rfl⟩
  · exact absurd rfl hsolid
  · rw [List.concat_eq_append] at hlast hcolon ⊢
    by_contra hcontinues
    have hcontinues : continuesIdentifier d = true := by simpa using hcontinues
    have hne : d ≠ ':' := by
      rintro rfl
      rw [getLast?_trimEnd, withoutBlanks_append] at hcolon
      exact hcolon List.getLast?_concat
    simp [isWordChar_of_continuesIdentifier hcontinues hne] at hlast

theorem cutName_mapIdentifiers_of_named (hf : PutsTypes f) (hcs' : EndsSolid cs')
    (h : Alike normalizeDrops (mapIdentifiers f cs) cs')
    (hname : (cutName cs).2 ≠ []) (hkept : ∀ x ∈ identifiers (cutName cs).2, f x = x) :
    (cutName cs').2 = (cutName cs).2 ∧
      Alike normalizeDrops (mapIdentifiers f (cutName cs).1) (cutName cs').1 := by
  obtain ⟨before, word, rfl, hcut, hisName, hword, hlast⟩ := cutName_of_named hname
  rw [hcut] at hkept ⊢
  obtain ⟨⟨hsolid, hcolon⟩, hrest⟩ := isName_iff.mp hisName
  obtain ⟨start, d, rfl, hd⟩ := exists_eq_concat_of_isName hisName hlast
  have hstart : mapIdentifiers f (start ++ [d]) = mapIdentifiers f start ++ [d] := by
    rw [mapIdentifiers_append_cons hd, mapIdentifiers]
  have hsplit : mapIdentifiers f (start ++ [d] ++ word)
      = mapIdentifiers f (start ++ [d]) ++ word := by
    rw [hstart, List.append_assoc, List.append_assoc]
    exact (mapIdentifiers_append_cons hd f start word).trans
      (by rw [mapIdentifiers_eq_of_fixed hkept]; rfl)
  have hisName' : isName (trimEnd (mapIdentifiers f (start ++ [d]))) word = true := by
    refine isName_iff.mpr ⟨⟨?_, ?_⟩, hrest⟩
    · rwa [Ne, trimEnd_eq_nil_iff, withoutBlanks_mapIdentifiers_eq_nil_iff hf, ← trimEnd_eq_nil_iff]
    · rw [getLast?_trimEnd] at hcolon ⊢
      rcases endsAs_mapIdentifiers hf (start ++ [d]) with heq | ⟨t, ht, heq⟩
      · rwa [heq]
      · rw [heq]
        exact ht.colon
  have hlast' : (mapIdentifiers f (start ++ [d])).getLast?.any isWordChar = false := by
    rw [hstart, List.getLast?_concat]
    rwa [List.getLast?_concat] at hlast
  have hends : EndsSolid (mapIdentifiers f (start ++ [d]) ++ word) := by
    intro c hc
    rw [List.getLast?_append_of_ne_nil _ hrest.1] at hc
    exact isBlank_of_isWordChar (hword c (List.mem_of_getLast? hc))
  rw [hsplit] at h
  obtain ⟨hsame, htype⟩ := cutName_alike h hends hcs'
  rw [cutName_append hisName' hword hlast'] at hsame htype
  exact ⟨hsame, (respaced_mapIdentifiers_trimEnd hf.closesOff _).trans htype⟩

theorem endsSolid_tidyFrom (last : Option Char) (gap : Bool) (cs : List Char) :
    EndsSolid (tidyFrom last gap cs) := by
  induction cs generalizing last gap with
  | nil => exact nofun
  | cons c rest ih =>
    rw [tidyFrom]
    cases hc : isBlank c with
    | true => exact ih last true
    | false =>
      intro d hd
      rw [if_neg Bool.false_ne_true, List.getLast?_append_of_ne_nil _ (List.cons_ne_nil _ _),
        List.getLast?_cons] at hd
      cases hlast : (tidyFrom (some c) false rest).getLast? with
      | none =>
        rw [hlast] at hd
        cases hd
        exact hc
      | some e =>
        rw [hlast] at hd
        cases hd
        exact ih (some c) false e hlast

theorem cutName_mapIdentifiers_of_unnamed (hf : ClosesOff f) (hcs : IsTight cs)
    (hcs' : EndsSolid cs') (h : Alike normalizeDrops (mapIdentifiers f cs) cs')
    (hname : (cutName cs).2 = [])
    (hunnamed : (cutName (tidy (mapIdentifiers f (normalize cs)))).2 = []) :
    (cutName cs').2 = (cutName cs).2 ∧
      Alike normalizeDrops (mapIdentifiers f (cutName cs).1) (cutName cs').1 := by
  have htidy : Alike normalizeDrops (mapIdentifiers f (normalize cs))
      (tidy (mapIdentifiers f (normalize cs))) :=
    (respaced_tidy _).mono fun _ _ => normalizeDrops_of_tidyDrops
  have htype := ((respaced_mapIdentifiers_normalize hf hcs).trans htidy).symm.trans h
  have hsame := (cutName_alike htype (endsSolid_tidyFrom none false _) hcs').1
  rw [hunnamed] at hsame
  rw [hname, cutName_of_unnamed hname, cutName_of_unnamed hsame]
  exact ⟨hsame, h⟩

end Name

/-! ## One argument -/

/-- What is read of an argument after identifiers were replaced, its default value apart. -/
structure IsReplaced (f : List Char → List Char) (a b : Argument) : Prop where
  typeText : b.typeText.toList = normalize (mapIdentifiers f a.typeText.toList)
  name : b.name = a.name
  arraySuffix : b.arraySuffix.toList = normalize (mapIdentifiers f a.arraySuffix.toList)

theorem infix_cutArray (cs : List Char) : (cutArray cs).1 <:+: cs ∧ (cutArray cs).2 <:+: cs := by
  unfold cutArray
  split
  · rw [cut_eq_scan]
    cases hcut : scan (stopAt '[') () cs with
    | none => exact ⟨List.infix_rfl, List.nil_infix⟩
    | some cut =>
      obtain ⟨c, ⟨_, hstop⟩, rfl⟩ := eq_append_of_scan hcut
      obtain rfl := eq_of_stopAt hstop
      exact ⟨((isPrefix_trimEnd cut.1).trans (List.prefix_append _ _)).isInfix,
        (List.suffix_append _ _).isInfix⟩
  · exact ⟨List.infix_rfl, List.nil_infix⟩

theorem infix_cutName (cs : List Char) : (cutName cs).1 <:+: cs := by
  by_cases hname : (cutName cs).2 = []
  · rw [cutName_of_unnamed hname]
  · obtain ⟨before, word, rfl, hcut, -⟩ := cutName_of_named hname
    rw [hcut]
    exact ((isPrefix_trimEnd before).trans (List.prefix_append _ _)).isInfix

theorem infix_trim (cs : List Char) : trim cs <:+: cs :=
  (isPrefix_trimEnd _).isInfix.trans (List.dropWhile_suffix _).isInfix

theorem infix_cutDefault (cs : List Char) : (cutDefault cs).1 <:+: cs := by
  unfold cutDefault
  cases hcut : cutDefaultFrom 0 none cs with
  | none => exact List.infix_rfl
  | some cut => exact ⟨[], _, (cutDefaultFrom_eq_some hcut).1.symm⟩

theorem normalize_mapIdentifiers_eq (hf : ClosesOff f) (hcs : IsTight cs)
    (h : Alike normalizeDrops (mapIdentifiers f cs) cs') :
    normalize cs' = normalize (mapIdentifiers f (normalize cs)) := by
  rw [← h.normalize_eq, (respaced_mapIdentifiers_normalize hf hcs).normalize_eq]

/-- An argument that is read after a replacement is the argument, replaced. -/
theorem isReplaced_read (hf : PutsTypes f) (hcs : IsTight cs) (habove : StaysAbove 0 cs)
    (hkept : ∀ x ∈ identifiers (read cs).name.toList, f x = x) (hunnamed : (read cs).name = "" →
      (cutName (tidy (mapIdentifiers f (read cs).typeText.toList))).2 = []) :
    IsReplaced f (read cs) (read (mapIdentifiers f cs)) := by
  have hdeclaration : read (mapIdentifiers f cs)
      = ofDeclaration (mapIdentifiers f (trim (cutDefault cs).1))
        (mapIdentifiers f (cutDefault cs).2) := by
    rw [Argument.read, cutDefault_mapIdentifiers hf habove]
    exact ofDeclaration_alike ((respaced_mapIdentifiers_trim hf.closesOff _).symm.mono
      fun _ _ => normalizeDrops_of_tidyDrops) rfl
  have htight : IsTight (trim (cutDefault cs).1) :=
    hcs.of_isInfix ((infix_trim _).trans (infix_cutDefault cs))
  rw [hdeclaration]
  rw [Argument.read] at hkept hunnamed ⊢
  unfold ofDeclaration at hkept hunnamed ⊢
  dsimp only at hkept hunnamed ⊢
  have hsolid : EndsSolid (trim (cutDefault cs).1) := endsSolid_trimEnd _
  generalize trim (cutDefault cs).1 = declaration at hkept hunnamed htight hsolid
  obtain ⟨hbefore, harray⟩ := cutArray_mapIdentifiers hf hsolid
  obtain ⟨hpart', harrayPart⟩ := infix_cutArray declaration
  have hsolid' : EndsSolid (cutArray (trim (mapIdentifiers f declaration))).1 :=
    endsSolid_cutArray (endsSolid_trimEnd _)
  have hname : (cutName (cutArray (trim (mapIdentifiers f declaration))).1).2
        = (cutName (cutArray declaration).1).2 ∧
      Alike normalizeDrops (mapIdentifiers f (cutName (cutArray declaration).1).1)
        (cutName (cutArray (trim (mapIdentifiers f declaration))).1).1 := by
    by_cases hnamed : (cutName (cutArray declaration).1).2 = []
    · rw [hnamed, cutName_of_unnamed hnamed] at hunnamed
      refine cutName_mapIdentifiers_of_unnamed hf.closesOff (htight.of_isInfix hpart') hsolid' hbefore
        hnamed ?_
      simpa using hunnamed
    · exact cutName_mapIdentifiers_of_named hf hsolid' hbefore hnamed (by simpa using hkept)
  constructor
  · simpa using normalize_mapIdentifiers_eq hf.closesOff
      (htight.of_isInfix ((infix_cutName _).trans hpart')) hname.2
  · rw [hname.1]
  · simpa using normalize_mapIdentifiers_eq hf.closesOff (htight.of_isInfix harrayPart) harray

/-! ## Argument lists -/

open Signature

theorem infix_of_mem_splitFrom {sep : Char} {level : Int} {part : List Char}
    (h : part ∈ splitFrom sep level cs) : part <:+: cs := by
  induction hn : cs.length using Nat.strongRecOn generalizing cs level with
  | ind n ih =>
    cases hcut : scan (splitStep sep) level cs with
    | none =>
      rw [splitFrom_of_scan_eq_none hcut, List.mem_singleton] at h
      rw [h]
    | some cut =>
      rw [splitFrom_of_scan_eq_some hcut] at h
      obtain ⟨c, -, heq⟩ := eq_append_of_scan hcut
      rcases List.mem_cons.mp h with rfl | h
      · exact heq ▸ (List.prefix_append _ _).isInfix
      · have hafter : cut.2 <:+: cs := by
          rw [heq]
          exact ((List.suffix_cons c cut.2).trans (List.suffix_append _ _)).isInfix
        exact (ih _ (hn ▸ length_lt_of_scan hcut) h rfl).trans hafter

theorem infix_cutAtClose (cs : List Char) : (cutAtClose cs).1 <:+: cs := by
  unfold cutAtClose
  rw [closeFrom_eq_scan]
  cases hcut : scan closeStep 0 cs with
  | none => exact List.infix_rfl
  | some cut =>
    obtain ⟨c, -, heq⟩ := eq_append_of_scan hcut
    exact heq ▸ (List.prefix_append _ _).isInfix

/-- A part of an argument list, and the same part after identifiers were replaced. -/
structure PartReplaced (f : List Char → List Char) (inner p q : List Char) : Prop where
  respaced : Alike tidyDrops (mapIdentifiers f p) q
  isTrimmed : ∃ x y, p = trim x ∧ q = trim y
  isInfix : p <:+: inner
  staysAbove : StaysAbove 0 p
  staysAbove_replaced : StaysAbove 0 q

theorem PartReplaced.isEmpty_eq (hf : PutsTypes f) {inner p q : List Char}
    (h : PartReplaced f inner p q) : p.isEmpty = q.isEmpty := by
  have hsame := h.respaced.withoutBlanks_eq
  obtain ⟨x, y, rfl, rfl⟩ := h.isTrimmed
  have hempty (z : List Char) : trim z = [] ↔ withoutBlanks (trim z) = [] := by
    rw [trim_eq_nil_iff, trim, withoutBlanks_trimEnd, withoutBlanks_trimStart]
  rw [Bool.eq_iff_iff, List.isEmpty_iff, List.isEmpty_iff, hempty, hempty, ← hsame,
    withoutBlanks_mapIdentifiers_eq_nil_iff hf]

theorem trimmedParts_mapIdentifiers (hf : PutsTypes f) (h : StaysAbove 0 inner)
    (h' : StaysAbove 0 (mapIdentifiers f inner)) :
    List.Forall₂ (PartReplaced f inner) (trimmedParts inner)
      (trimmedParts (mapIdentifiers f inner)) := by
  have hempty : Relator.LiftFun (PartReplaced f inner) (· ↔ ·) (fun p => (!p.isEmpty) = true)
      (fun q => (!q.isEmpty) = true) := by
    intro p q hpart
    simp only [hpart.isEmpty_eq hf]
  have hsplit := splitFrom_mapIdentifiers hf h
  unfold trimmedParts splitTopLevel
  refine List.rel_filter hempty ?_
  rw [hsplit, List.forall₂_map_left_iff, List.forall₂_map_right_iff, List.forall₂_map_right_iff,
    List.forall₂_same]
  intro part hpart
  have hreplaced : mapIdentifiers f part ∈ splitFrom ',' 0 (mapIdentifiers f inner) := by
    rw [hsplit]
    exact List.mem_map_of_mem hpart
  exact {
    respaced := (respaced_mapIdentifiers_trim hf.closesOff part).trans
      (respaced_trim (fun _ => rfl) false false _)
    isTrimmed := ⟨part, _, rfl, rfl⟩
    isInfix := (infix_trim part).trans (infix_of_mem_splitFrom hpart)
    staysAbove := (staysAbove_of_mem_splitFrom h hpart).trim
    staysAbove_replaced := (staysAbove_of_mem_splitFrom h' hreplaced).trim }

/-- What stands outside of the parentheses of an argument list. -/
def outside (text : List Char) : List Char :=
  match cut ['('] text with
  | none => text
  | some (before, afterOpen) => before ++ ' ' :: (cutAtClose afterOpen).2

/-- What a replacement must leave alone in the text of an argument list: all that is not in the type,
the array suffix or the default value of an argument; and a type that is put in must not be taken
for a name or for no argument at all. -/
structure KeepsShape (f : List Char → List Char) (text : List Char) : Prop where
  isTight : IsTight text
  outside : ∀ x ∈ identifiers (outside text), f x = x
  void : f "void".toList = "void".toList
  names : ∀ a ∈ (ofText text).arguments, ∀ x ∈ identifiers a.name.toList, f x = x
  unnamed : ∀ a ∈ (ofText text).arguments, a.name = "" →
    (cutName (tidy (mapIdentifiers f a.typeText.toList))).2 = []
  lone : ∀ a, (ofText text).arguments = [a] → a.name = "" →
    normalize (mapIdentifiers f a.typeText.toList) ≠ "void".toList

theorem identifiers_void : identifiers "void".toList = ["void".toList] :=
  identifiers_identifier (by decide) (List.all_eq_true.mp (by decide))

theorem argumentParts_mapIdentifiers {ps qs : List (List Char)}
    (hparts : List.Forall₂ (PartReplaced f inner) ps qs) (hvoid : f "void".toList = "void".toList)
    (hread : ps ≠ ["void".toList] → ∀ p ∈ ps, ∀ q, PartReplaced f inner p q →
      IsReplaced f (read p) (read (mapIdentifiers f p)))
    (hlone : ps ≠ ["void".toList] → ∀ p, ps = [p] → (read p).name = "" →
      normalize (mapIdentifiers f (read p).typeText.toList) ≠ "void".toList) :
    List.Forall₂ (IsReplaced f) ((if ps = ["void".toList] then [] else ps).map read)
      ((if qs = ["void".toList] then [] else qs).map read) := by
  have hne : "void".toList ≠ [] := by decide
  have hsame {p q : List Char} (h : PartReplaced f inner p q) : read (mapIdentifiers f p) = read q :=
    (read_alike h.respaced.symm h.staysAbove_replaced).symm
  by_cases hps : ps = ["void".toList]
  · have hqs : qs = ["void".toList] := by
      subst hps
      obtain ⟨q, rest, hq, hrest, rfl⟩ := List.forall₂_cons_left_iff.mp hparts
      obtain rfl := List.forall₂_nil_left_iff.mp hrest
      obtain ⟨-, y, -, rfl⟩ := hq.isTrimmed
      have hword := hq.respaced.mono fun _ _ => normalizeDrops_of_tidyDrops
      have hfixed : ∀ x ∈ identifiers "void".toList, f x = x := by
        intro x hx
        rw [identifiers_void, List.mem_singleton] at hx
        rw [hx, hvoid]
      rw [mapIdentifiers_eq_of_fixed hfixed] at hword
      rw [hword.eq_of_word isWordChar_of_mem_void hne]
    rw [if_pos hps, if_pos hqs]
    exact .nil
  · have hqs : qs ≠ ["void".toList] := by
      rintro rfl
      obtain ⟨p, rest, hp, hrest, rfl⟩ := List.forall₂_cons_right_iff.mp hparts
      obtain rfl := List.forall₂_nil_right_iff.mp hrest
      have hreplaced := hread hps p List.mem_cons_self _ hp
      rw [hsame hp] at hreplaced
      have hname : (read "void".toList).name = "" := by decide +kernel
      have htype : (read "void".toList).typeText.toList = "void".toList := by decide +kernel
      exact hlone hps p rfl (hreplaced.name.symm.trans hname) (hreplaced.typeText.symm.trans htype)
    rw [if_neg hps, if_neg hqs, List.forall₂_map_left_iff, List.forall₂_map_right_iff]
    refine (List.forall₂_and_left _ _ |>.mpr ⟨hread hps, hparts⟩).imp fun p q h => ?_
    rw [← hsame h.2]
    exact h.1 q h.2

theorem scan_append_cons {σ : Type} {step : σ → Char → Option σ} {s : σ} {before after : List Char}
    (h : scan step s (before ++ c :: after) = some (before, after)) (after' : List Char) :
    scan step s (before ++ c :: after') = some (before, after') := by
  induction before generalizing s with
  | nil =>
    cases hstep : step s c with
    | none => exact scan_cons_of_none hstep after'
    | some s' =>
      rw [List.nil_append, scan_cons_of_some hstep] at h
      obtain ⟨cut, -, heq⟩ := Option.map_eq_some_iff.mp h
      cases heq
  | cons d before ih =>
    cases hstep : step s d with
    | none =>
      rw [List.cons_append, scan_cons_of_none hstep] at h
      cases h
    | some s' =>
      rw [List.cons_append, scan_cons_of_some hstep] at h ⊢
      obtain ⟨cut, hcut, heq⟩ := Option.map_eq_some_iff.mp h
      obtain ⟨hbefore, hafter⟩ := Prod.mk.inj heq
      rw [ih (by rw [hcut, ← hafter, ← (List.cons.inj hbefore).2])]
      rfl

/-- An argument list that is read after identifiers were replaced has the arguments of the list as it
was, with the identifiers replaced in their types and array suffixes, and the same qualifiers. -/
theorem ofText_mapIdentifiers (hf : PutsTypes f) {text : List Char} (h : KeepsShape f text) :
    List.Forall₂ (IsReplaced f) (ofText text).arguments (ofText (mapIdentifiers f text)).arguments ∧
      (ofText (mapIdentifiers f text)).isConst = (ofText text).isConst ∧
      (ofText (mapIdentifiers f text)).isVolatile = (ofText text).isVolatile := by
  obtain ⟨htight, houtside, hvoid, hnames, hunnamed, hlone⟩ := h
  unfold outside at houtside
  rw [cut_eq_scan] at houtside
  cases hcut : scan (stopAt '(') () text with
  | none =>
    rw [hcut] at houtside
    rw [mapIdentifiers_eq_of_fixed houtside]
    unfold ofText
    rw [cut_eq_scan, hcut]
    exact ⟨.nil, rfl, rfl⟩
  | some cut =>
    obtain ⟨before, afterOpen⟩ := cut
    rw [hcut] at houtside
    rw [identifiers_append_cons continuesIdentifier_blank] at houtside
    have hbefore : mapIdentifiers f before = before :=
      mapIdentifiers_eq_of_fixed fun x hx => houtside x (List.mem_append_left _ hx)
    have htrailing : mapIdentifiers f (cutAtClose afterOpen).2 = (cutAtClose afterOpen).2 :=
      mapIdentifiers_eq_of_fixed fun x hx => houtside x (List.mem_append_right _ hx)
    obtain ⟨c, ⟨_, hstop⟩, heq⟩ := eq_append_of_scan hcut
    obtain rfl := eq_of_stopAt hstop
    have hcut' : scan (stopAt '(') () (mapIdentifiers f text)
        = some (before, mapIdentifiers f afterOpen) := by
      rw [heq] at hcut ⊢
      rw [mapIdentifiers_append_cons (by decide), hbefore]
      exact scan_append_cons hcut _
    have hclose := cutAtClose_mapIdentifiers hf afterOpen
    have hpart' : (cutAtClose afterOpen).1 <:+: text := by
      rw [heq]
      exact (infix_cutAtClose afterOpen).trans
        ((List.suffix_cons '(' afterOpen).trans (List.suffix_append _ _)).isInfix
    have habove := staysAbove_cutAtClose afterOpen
    have habove' := staysAbove_cutAtClose (mapIdentifiers f afterOpen)
    rw [hclose] at habove'
    unfold ofText at hnames hunnamed hlone ⊢
    rw [cut_eq_scan, hcut] at hnames hunnamed hlone
    rw [cut_eq_scan, cut_eq_scan, hcut, hcut']
    dsimp only at hnames hunnamed hlone ⊢
    rw [hclose, htrailing]
    refine ⟨?_, rfl, rfl⟩
    have hparts := trimmedParts_mapIdentifiers hf habove habove'
    rw [argumentParts_eq] at hnames hunnamed hlone
    rw [argumentParts_eq, argumentParts_eq]
    generalize trimmedParts (cutAtClose afterOpen).1 = ps at hnames hunnamed hlone hparts
    refine argumentParts_mapIdentifiers hparts hvoid ?_ ?_
    · intro hps p hp q hpart
      rw [if_neg hps] at hnames hunnamed
      have hmem : Argument.read p ∈ ps.map Argument.read := List.mem_map_of_mem hp
      exact isReplaced_read hf (htight.of_isInfix (hpart.isInfix.trans hpart')) hpart.staysAbove
        (hnames _ hmem) (hunnamed _ hmem)
    · rintro hps p rfl
      rw [if_neg hps] at hlone
      exact hlone _ rfl

end Replaced

end SymbolAtlas.Substitution
