import SymbolAtlas.Atlas.Instance
import SymbolAtlas.Proofs.Signature.Rereading
import SymbolAtlas.Proofs.Text.Spacing

/-!
# Copies of members for an instance

The copy of a member for an instance has an argument list twice: as a text, in which the formal
parameters are replaced, and as what was read of the text of the original, where they are replaced
in the type of each argument. The two stay in step unless a parameter stands in an array suffix,
which is replaced in the text only.
-/

set_option autoImplicit false

namespace SymbolAtlas

variable {x : List Char} {text : String}

namespace Substitution

open Text

theorem isNestedFrom_withoutBlanks (level : Nat) (t : List Char) :
    isNestedFrom level (withoutBlanks t) = isNestedFrom level t := by
  unfold withoutBlanks
  induction t generalizing level with
  | nil => rfl
  | cons c t ih =>
    cases hc : isBlank c with
    | true =>
      have hne {d : Char} (hd : isBlank d = false) : c ≠ d := by
        rintro rfl
        rw [hc] at hd
        cases hd
      rw [List.filter_cons_of_neg (by simp [hc]), ih, isNestedFrom,
        if_neg (by simp [isOpening_of_isBlank hc]), if_neg (by simp [isClosing_of_isBlank hc])]
      simp [hne (by decide : isBlank ',' = false), hne (by decide : isBlank '=' = false)]
    | false =>
      rw [List.filter_cons_of_pos (by simp [hc]), isNestedFrom, isNestedFrom, ih, ih, ih]

theorem IsInert.congr {t t' : List Char} (h : IsInert t) (heq : withoutBlanks t = withoutBlanks t') :
    IsInert t' where
  isNested := by
    rw [← isNestedFrom_withoutBlanks, ← heq, isNestedFrom_withoutBlanks]
    exact h.isNested
  isSolid := heq ▸ h.isSolid
  colon := heq ▸ h.colon

/-- What is put in for an identifier does not depend on the text that it stands in, unless that is a
default value which mentions its own parameter. -/
theorem written_eq_of_mem {formals : List Argument}
    (h : ∀ formal ∈ formals, formal.name.toList ∉ identifiers formal.defaultText.toList)
    (actuals : List Argument) (expand : String → Option String) (hx : x ∈ identifiers text.toList) :
    written formals actuals expand text x = written formals actuals expand "" x := by
  unfold written replacement?
  cases hindex : formals.findIdx? fun formal => formal.name == String.ofList x with
  | none => rfl
  | some index =>
    obtain ⟨hlt, hname, -⟩ := List.findIdx?_eq_some_iff_getElem.mp hindex
    dsimp only
    cases actuals[index]? with
    | some actual => rfl
    | none =>
      rw [List.getElem?_eq_getElem hlt]
      have hformal := h _ (List.getElem_mem hlt)
      rw [eq_of_beq hname, String.toList_ofList] at hformal
      have hne : (formals[index].defaultText == text) = false := by
        rw [beq_eq_false_iff_ne]
        intro heq
        exact hformal (heq ▸ hx)
      dsimp only
      rw [hne, Bool.or_false, Bool.or_self]

theorem written_eq_self {formals : List Argument} (h : ∀ formal ∈ formals, formal.name.toList ≠ x)
    (actuals : List Argument) (expand : String → Option String) (whole : String) :
    written formals actuals expand whole x = x := by
  have hnone : (formals.findIdx? fun formal => formal.name == String.ofList x) = none := by
    rw [List.findIdx?_eq_none_iff]
    intro formal hformal
    rw [beq_eq_false_iff_ne]
    intro heq
    exact h formal hformal (by rw [heq, String.toList_ofList])
  unfold written replacement?
  rw [hnone]

end Substitution

namespace Instantiation

open Text Substitution

variable {i : Instantiation}

/-- Each parameter stands for something that can be a type, and can be told from its default value
and from `void`. -/
structure IsPlain (i : Instantiation) : Prop where
  types : ∀ formal ∈ i.formals, formal.name ≠ "" → IsInert (i.apply formal.name).toList
  defaults : ∀ formal ∈ i.formals, formal.name.toList ∉ identifiers formal.defaultText.toList
  void : ∀ formal ∈ i.formals, formal.name ≠ "void"

instance (i : Instantiation) : Decidable i.IsPlain :=
  decidable_of_iff ((∀ formal ∈ i.formals, formal.name ≠ "" → IsInert (i.apply formal.name).toList) ∧
      (∀ formal ∈ i.formals, formal.name.toList ∉ identifiers formal.defaultText.toList) ∧
      ∀ formal ∈ i.formals, formal.name ≠ "void")
    ⟨fun h => ⟨h.1, h.2.1, h.2.2⟩, fun h => ⟨h.types, h.defaults, h.void⟩⟩

/-- What is written in the place of an identifier. -/
def put (i : Instantiation) : List Char → List Char :=
  written i.formals i.actuals
    (fun value => some (expandWithin i.formals i.actuals (i.formals.length - 1) value)) ""

theorem put_eq_self (h : ∀ formal ∈ i.formals, formal.name.toList ≠ x) : i.put x = x :=
  written_eq_self h i.actuals _ ""

theorem apply_of_no_formals (h : i.formals = []) (text : String) : i.apply text = text := by
  unfold apply substitute
  rw [h]
  rfl

theorem toList_apply (hplain : i.IsPlain) (hformals : i.formals ≠ []) (text : String) :
    (i.apply text).toList = tidy (mapIdentifiers i.put text.toList) := by
  obtain ⟨depth, hdepth⟩ := Nat.exists_eq_succ_of_ne_zero (mt List.length_eq_zero_iff.mp hformals)
  have hput : i.put = written i.formals i.actuals
      (fun value => some (expandWithin i.formals i.actuals depth value)) "" := by
    unfold put
    rw [hdepth, Nat.succ_sub_one]
  unfold apply substitute
  rw [hdepth, expandWithin, toList_rewriteWith, if_neg hformals, hput]
  congr 1
  exact mapIdentifiers_congr fun x hx => written_eq_of_mem hplain.defaults _ _ hx

theorem mapIdentifiers_identifier {f : List Char → List Char} (hx : IsIdentifier x) :
    mapIdentifiers f x = f x := by
  have happend : mapIdentifiers f (x ++ []) = f x ++ mapIdentifiers f [] :=
    mapIdentifiers_identifier_append hx nofun
  rwa [List.append_nil, mapIdentifiers, List.append_nil] at happend

theorem IsPlain.putsTypes (hplain : i.IsPlain) (hformals : i.formals ≠ []) : PutsTypes i.put where
  closesOff := closesOff_written _ _ _ _
  isInert {x} hx := by
    by_cases hnamed : ∃ formal ∈ i.formals, formal.name.toList = x
    · obtain ⟨formal, hformal, rfl⟩ := hnamed
      have hne : formal.name ≠ "" := by
        intro hempty
        exact hx.ne_nil (by rw [hempty]; rfl)
      have hinert := hplain.types formal hformal hne
      rw [toList_apply hplain hformals, mapIdentifiers_identifier hx] at hinert
      exact .inr (hinert.congr (respaced_tidy _).withoutBlanks_eq.symm)
    · exact .inl (put_eq_self fun formal hformal heq => hnamed ⟨formal, hformal, heq⟩)

/-- What an instantiation must leave alone in the text of an argument list, so that the text is cut
into arguments at the same places. -/
structure Suits (i : Instantiation) (text : String) : Prop where
  /-- Blanks do not tear qualified names apart. -/
  isTight : IsTight text.toList
  /-- Only what stands between the parentheses is replaced. -/
  outside : ∀ formal ∈ i.formals, formal.name.toList ∉ identifiers (outside text.toList)
  /-- No argument is named like a parameter of the template. -/
  names : ∀ a ∈ (Signature.read text).arguments, ∀ formal ∈ i.formals,
    formal.name.toList ∉ identifiers a.name.toList
  /-- No type that is put in ends in what would be the name of an argument that has none. -/
  unnamed : ∀ a ∈ (Signature.read text).arguments, a.name = "" →
    (Argument.cutName (i.apply a.typeText).toList).2 = []
  /-- The only argument does not become `void`. -/
  lone : ∀ a ∈ (Signature.read text).arguments, (Signature.read text).arguments.length = 1 →
    a.name = "" → normalized (i.apply a.typeText) ≠ "void"
  /-- The words that only say what sort of class is meant can be told in any spacing. -/
  sorts : ∀ a ∈ (Signature.read text).arguments,
    Argument.comparedType { a with typeText := normalized (i.apply a.typeText) }
      = Argument.comparedType { a with typeText := i.apply a.typeText }

instance (i : Instantiation) (text : String) : Decidable (i.Suits text) :=
  decidable_of_iff (IsTight text.toList ∧
      (∀ formal ∈ i.formals, formal.name.toList ∉ identifiers (Substitution.outside text.toList)) ∧
      (∀ a ∈ (Signature.read text).arguments, ∀ formal ∈ i.formals,
        formal.name.toList ∉ identifiers a.name.toList) ∧
      (∀ a ∈ (Signature.read text).arguments, a.name = "" →
        (Argument.cutName (i.apply a.typeText).toList).2 = []) ∧
      (∀ a ∈ (Signature.read text).arguments, (Signature.read text).arguments.length = 1 →
        a.name = "" → normalized (i.apply a.typeText) ≠ "void") ∧
      ∀ a ∈ (Signature.read text).arguments,
        Argument.comparedType { a with typeText := normalized (i.apply a.typeText) }
          = Argument.comparedType { a with typeText := i.apply a.typeText })
    ⟨fun h => ⟨h.1, h.2.1, h.2.2.1, h.2.2.2.1, h.2.2.2.2.1, h.2.2.2.2.2⟩,
      fun h => ⟨h.isTight, h.outside, h.names, h.unnamed, h.lone, h.sorts⟩⟩

theorem toList_normalized (s : String) : (normalized s).toList = normalize s.toList := by
  rw [normalized, String.toList_ofList]

theorem toList_normalized_apply (hplain : i.IsPlain) (hformals : i.formals ≠ []) (text : String) :
    (normalized (i.apply text)).toList = normalize (mapIdentifiers i.put text.toList) := by
  rw [toList_normalized, toList_apply hplain hformals]
  exact ((respaced_tidy _).mono fun _ _ => normalizeDrops_of_tidyDrops).normalize_eq.symm

/-- Arguments that suit a text leave its brackets, commas and names in place. -/
theorem Suits.keepsShape (hplain : i.IsPlain) (hformals : i.formals ≠ []) (h : i.Suits text) :
    KeepsShape i.put text.toList where
  isTight := h.isTight
  outside x hx := put_eq_self fun formal hformal heq => h.outside formal hformal (heq ▸ hx)
  void := put_eq_self fun formal hformal heq => hplain.void formal hformal (String.toList_inj.mp heq)
  names a ha x hx := by
    rw [← Signature.read_eq_ofText] at ha
    exact put_eq_self fun formal hformal heq => h.names a ha formal hformal (heq ▸ hx)
  unnamed a ha hname := by
    rw [← Signature.read_eq_ofText] at ha
    rw [← toList_apply hplain hformals]
    exact h.unnamed a ha hname
  lone a ha hname := by
    rw [← Signature.read_eq_ofText] at ha
    rw [← toList_normalized_apply hplain hformals, Ne, String.toList_inj]
    exact h.lone a (by simp [ha]) (by simp [ha]) hname

/-! ## Text and arguments of a copy -/

/-- The argument of a copy that an argument of the original is carried over to. -/
def copyArgument (i : Instantiation) (a : Argument) : Argument :=
  { a with typeText := i.apply a.typeText }

/-- What is compared of an argument: its type without the words for sorts of classes, and its array
suffix. -/
theorem comparedType_eq_iff {a b : Argument}
    (h : Argument.comparedType { a with typeText := b.typeText } = Argument.comparedType a) :
    a.comparedType = b.comparedType ↔ a.arraySuffix = b.arraySuffix := by
  rw [← h]
  exact String.append_right_inj _

theorem arraySuffix_of_mem_read {a : Argument} (ha : a ∈ (Signature.read text).arguments) :
    normalized a.arraySuffix = a.arraySuffix := by
  unfold Signature.read Signature.ofText at ha
  split at ha
  · exact absurd ha List.not_mem_nil
  · obtain ⟨part, -, rfl⟩ := List.mem_map.mp ha
    rw [Argument.read]
    unfold Argument.ofDeclaration normalized
    rw [String.toList_ofList, normalize_normalize]

theorem map_comparedType_eq_iff {f : List Char → List Char} {as bs : List Argument}
    (h : List.Forall₂ (IsReplaced f) as bs)
    (hsame : ∀ a ∈ as, ∀ b, IsReplaced f a b →
      ((i.copyArgument a).comparedType = b.comparedType ↔
        normalized (i.apply a.arraySuffix) = a.arraySuffix)) :
    (as.map i.copyArgument).map Argument.comparedType = bs.map Argument.comparedType ↔
      ∀ a ∈ as, normalized (i.apply a.arraySuffix) = a.arraySuffix := by
  induction h with
  | nil => simp
  | @cons a b as bs hab h ih =>
    rw [List.map_cons, List.map_cons, List.map_cons, List.cons.injEq, List.forall_mem_cons,
      hsame a List.mem_cons_self b hab, ih fun a ha => hsame a (List.mem_cons_of_mem _ ha)]

/-- The arguments of a copy match those that are read of its text if and only if replacing the
parameters changes no array suffix. -/
theorem isCompatible_copyMember_iff (hplain : i.IsPlain) {m : Member}
    (hread : m.signature = Signature.read m.argsText) (hsuits : i.Suits m.argsText)
    (source : MemberId) :
    (i.copyMember source m).signature.isCompatible
        (Signature.read (i.copyMember source m).argsText) = true ↔
      ∀ a ∈ m.signature.arguments, normalized (i.apply a.arraySuffix) = a.arraySuffix := by
  have hcopy : (i.copyMember source m).signature.isCompatible
      (Signature.read (i.copyMember source m).argsText) = true ↔
      ((m.signature.arguments.map i.copyArgument).map Argument.comparedType
          = (Signature.read (i.apply m.argsText)).arguments.map Argument.comparedType ∧
        m.signature.isConst = (Signature.read (i.apply m.argsText)).isConst) ∧
        m.signature.isVolatile = (Signature.read (i.apply m.argsText)).isVolatile := by
    unfold Signature.isCompatible
    rw [Bool.and_eq_true, Bool.and_eq_true, beq_iff_eq, beq_iff_eq, beq_iff_eq]
    rfl
  rw [hcopy, hread]
  by_cases hformals : i.formals = []
  · have hself : i.copyArgument = id := by
      funext a
      rw [copyArgument, apply_of_no_formals hformals]
      rfl
    rw [hself, List.map_id, apply_of_no_formals hformals]
    refine iff_of_true ⟨⟨rfl, rfl⟩, rfl⟩ fun a ha => ?_
    rw [apply_of_no_formals hformals]
    exact arraySuffix_of_mem_read ha
  · have hreread : Signature.read (i.apply m.argsText)
        = Signature.ofText (mapIdentifiers i.put m.argsText.toList) := by
      rw [Signature.read_eq_ofText, toList_apply hplain hformals, Signature.ofText_tidy]
    obtain ⟨harguments, hconst, hvolatile⟩ := ofText_mapIdentifiers (hplain.putsTypes hformals)
      (hsuits.keepsShape hplain hformals)
    rw [← hreread, ← Signature.read_eq_ofText] at harguments hconst hvolatile
    rw [hconst, hvolatile, and_iff_left rfl, and_iff_left rfl]
    refine map_comparedType_eq_iff harguments fun a ha b hab => ?_
    have htype : b.typeText = normalized (i.apply a.typeText) := by
      rw [← String.toList_inj, toList_normalized_apply hplain hformals, hab.typeText]
    have harray : b.arraySuffix = normalized (i.apply a.arraySuffix) := by
      rw [← String.toList_inj, toList_normalized_apply hplain hformals, hab.arraySuffix]
    rw [comparedType_eq_iff (by rw [htype]; exact hsuits.sorts a ha), harray]
    exact eq_comm

end Instantiation

end SymbolAtlas
