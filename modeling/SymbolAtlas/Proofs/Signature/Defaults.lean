import SymbolAtlas.Proofs.Signature.Rereading

/-!
# Expansion of default values

A formal parameter without an actual argument is replaced by its default value, in which parameters
are replaced again. If each default value looks back only, at parameters before its own, then as many
levels as there are parameters are enough, and no parameter that stands for something is left over.
If default values go round in circles, the number of levels puts an end to the expansion.
-/

set_option autoImplicit false

namespace SymbolAtlas.Substitution

open Text

variable {actual : Argument} {text : String}

/-! ## Parameter lists -/

/-- The parameters have different names, and a default value mentions a parameter only behind it. -/
structure LooksBack (formals : List Argument) : Prop where
  names : (formals.map (·.name)).Nodup
  earlier : ∀ i (hi : i < formals.length) j (hj : j < formals.length),
    formals[j].name.toList ∈ identifiers formals[i].defaultText.toList → j < i

instance (formals : List Argument) : Decidable (LooksBack formals) :=
  decidable_of_iff ((formals.map (·.name)).Nodup ∧
      ∀ i (hi : i < formals.length) j (hj : j < formals.length),
        (identifiers formals[i].defaultText.toList).contains formals[j].name.toList = true → j < i)
    ⟨fun h => ⟨h.1, by simpa using h.2⟩, fun h => ⟨h.names, by simpa using h.earlier⟩⟩

/-- The actual arguments are not empty, mention none of the parameters, and none of them is a name
inside of its own parameter. -/
structure Fills (actuals formals : List Argument) : Prop where
  types : ∀ actual ∈ actuals, actual.typeText ≠ ""
  foreign : ∀ actual ∈ actuals, ∀ formal ∈ formals,
    formal.name.toList ∉ identifiers (actualText actual).toList
  outside : ∀ pair ∈ formals.zip actuals,
    ¬ pair.1.name.toList ++ [':', ':'] <+: pair.2.typeText.toList

instance (actuals formals : List Argument) : Decidable (Fills actuals formals) :=
  decidable_of_iff ((∀ actual ∈ actuals, actual.typeText ≠ "") ∧
      (∀ actual ∈ actuals, ∀ formal ∈ formals,
        (identifiers (actualText actual).toList).contains formal.name.toList = false) ∧
      ∀ pair ∈ formals.zip actuals, ¬ pair.1.name.toList ++ [':', ':'] <+: pair.2.typeText.toList)
    ⟨fun h => ⟨h.1, by simpa using h.2.1, h.2.2⟩,
      fun h => ⟨h.types, by simpa using h.foreign, h.outside⟩⟩

/-! ## Identifiers by themselves -/

theorem isIdentifier_of_mem_identifiers {x cs : List Char} (h : x ∈ identifiers cs) :
    IsIdentifier x := by
  fun_induction identifiers cs with
  | case1 => exact absurd h List.not_mem_nil
  | case2 c rest hc ih =>
    rcases List.mem_cons.mp h with rfl | h
    · exact isIdentifier_takeWhile hc rest
    · exact ih h
  | case3 c rest hc ih => exact ih h

theorem IsIdentifier.identifiers_eq {x : List Char} (hx : IsIdentifier x) : identifiers x = [x] := by
  obtain ⟨c, word, rfl, hc, hword⟩ := hx
  exact identifiers_identifier hc hword

theorem mem_identifiers_actualText {x : List Char} (hx : IsIdentifier x)
    (h : actual.typeText.toList = x) : x ∈ identifiers (actualText actual).toList := by
  unfold actualText
  split
  · rw [h, hx.identifiers_eq]
    exact List.mem_singleton_self x
  · have hsplit : (actual.typeText ++ " " ++ actual.name).toList = x ++ ' ' :: actual.name.toList := by
      rw [String.toList_append, String.toList_append, h, List.append_assoc]
      rfl
    rw [hsplit, identifiers_append_cons continuesIdentifier_blank, hx.identifiers_eq]
    exact List.mem_append_left _ (List.mem_singleton_self x)

/-! ## What is put in for a parameter -/

section Written

variable {formals actuals : List Argument} {x : List Char} {index : Nat}

theorem written_of_none
    (h : (formals.findIdx? fun formal => formal.name == String.ofList x) = none)
    (expand : String → Option String) (whole : String) :
    written formals actuals expand whole x = x := by
  rw [written, replacement?, h]

theorem written_of_actual
    (h : (formals.findIdx? fun formal => formal.name == String.ofList x) = some index)
    (hactual : actuals[index]? = some actual) (htype : actual.typeText ≠ "")
    (hgrows : growsFrom actual.typeText (String.ofList x) = false) (expand : String → Option String)
    (whole : String) :
    written formals actuals expand whole x = (actualText actual).toList ++ [' '] := by
  rw [written, replacement?, h]
  dsimp only
  rw [hactual]
  dsimp only
  rw [hgrows, if_neg (by simpa using htype), actualText]
  by_cases hname : actual.name = ""
  · rw [if_pos (by simpa using hname), if_pos hname]
  · rw [if_neg (by simpa using hname), if_neg hname]

/-- Without an actual argument the default value is expanded, if there is one that is not the whole
text in question. -/
theorem written_of_default
    (h : (formals.findIdx? fun formal => formal.name == String.ofList x) = some index)
    (hactual : actuals[index]? = none) {formal : Argument} (hformal : formals[index]? = some formal)
    (expand : String → Option String) (whole : String) :
    written formals actuals expand whole x
      = if formal.defaultText = "" ∨ formal.defaultText = whole then x
        else ((expand formal.defaultText).map fun new => new.toList ++ [' ']).getD x := by
  rw [written, replacement?, h]
  dsimp only
  rw [hactual]
  rw [hformal]
  dsimp only
  by_cases hstays : formal.defaultText = "" ∨ formal.defaultText = whole
  · rw [if_pos (by simpa using hstays), if_pos hstays]
  · rw [if_neg (by simpa using hstays), if_neg hstays]
    cases expand formal.defaultText <;> rfl

end Written

/-! ## Parameters that are left over -/

/-- A parameter that stands for something: it has an actual argument or a default value. -/
def StandsForText (formals actuals : List Argument) (formal : Argument) : Prop :=
  ∃ i, formals[i]? = some formal ∧ (i < actuals.length ∨ formal.defaultText ≠ "")

/-- The parameters that a text mentions are among the first ones. -/
def MentionsBelow (formals : List Argument) (bound : Nat) (text : String) : Prop :=
  ∀ i (hi : i < formals.length), formals[i].name.toList ∈ identifiers text.toList → i < bound

section LeftOver

variable {formals actuals : List Argument}
variable {formal : Argument}

theorem LooksBack.index_eq (h : LooksBack formals) {i j : Nat} {other : Argument}
    (hi : formals[i]? = some formal) (hj : formals[j]? = some other)
    (hname : formal.name = other.name) : i = j := by
  have hlt : i < (formals.map (·.name)).length := by
    rw [List.length_map]
    exact (List.getElem?_eq_some_iff.mp hi).1
  refine (List.getElem?_inj hlt h.names).mp ?_
  rw [List.getElem?_map, List.getElem?_map, hi, hj, Option.map_some, Option.map_some, hname]

theorem findIdx?_eq_some {x : List Char} {index : Nat}
    (h : (formals.findIdx? fun formal => formal.name == String.ofList x) = some index) :
    ∃ formal, formals[index]? = some formal ∧ formal.name.toList = x := by
  obtain ⟨hlt, hname, -⟩ := List.findIdx?_eq_some_iff_getElem.mp h
  refine ⟨formals[index], List.getElem?_eq_getElem hlt, ?_⟩
  rw [eq_of_beq hname, String.toList_ofList]

theorem Fills.growsFrom_eq_false (h : Fills actuals formals) {index : Nat}
    (hformal : formals[index]? = some formal) (hactual : actuals[index]? = some actual)
    {x : List Char} (hx : IsIdentifier x) (hname : formal.name.toList = x) :
    growsFrom actual.typeText (String.ofList x) = false := by
  rw [← Bool.not_eq_true, growsFrom_ofList]
  rintro (hsame | hinside)
  · exact h.foreign actual (List.mem_of_getElem? hactual) formal (List.mem_of_getElem? hformal)
      (hname ▸ mem_identifiers_actualText hx hsame)
  · refine h.outside (formal, actual) ?_ (hname ▸ hinside)
    refine List.mem_of_getElem? (i := index) ?_
    rw [List.getElem?_zip_eq_some]
    exact ⟨hformal, hactual⟩

/-- A text with its parameters replaced mentions none that stands for something, if the default values
that are put in have been expanded and mention none. -/
theorem notMem_identifiers_rewriteWith (hback : LooksBack formals) (hfills : Fills actuals formals)
    (hstands : StandsForText formals actuals formal) {expand : String → Option String}
    {text : String} (hexpand : ∀ (j : Nat) (other : Argument), formals[j]? = some other →
      other.name.toList ∈ identifiers text.toList →
        ∃ new, expand other.defaultText = some new ∧ formal.name.toList ∉ identifiers new.toList) :
    formal.name.toList ∉ identifiers (rewriteWith formals actuals expand text).toList := by
  obtain ⟨i, hi, hvalue⟩ := hstands
  have hne : formals ≠ [] := List.ne_nil_of_mem (List.mem_of_getElem? hi)
  rw [toList_rewriteWith, if_neg hne, identifiers_tidy,
    identifiers_mapIdentifiers (closesOff_written _ _ _ _), List.mem_flatMap]
  rintro ⟨x, hx, hmem⟩
  have hid := isIdentifier_of_mem_identifiers hx
  -- An identifier that stays is the parameter only if it names it.
  have hstays {written : List Char} (hwritten : written = x)
      (hmem : formal.name.toList ∈ identifiers written) : formal.name.toList = x := by
    rw [hwritten, hid.identifiers_eq] at hmem
    exact List.mem_singleton.mp hmem
  cases hindex : formals.findIdx? fun formal => formal.name == String.ofList x with
  | none =>
    have hname := hstays (written_of_none hindex expand text) hmem
    have hother := List.findIdx?_eq_none_iff.mp hindex formal (List.mem_of_getElem? hi)
    simp [← hname] at hother
  | some j =>
    obtain ⟨other, hj, hname⟩ := findIdx?_eq_some hindex
    cases hactual : actuals[j]? with
    | some actual =>
      have hactualMem := List.mem_of_getElem? hactual
      rw [written_of_actual hindex hactual (hfills.types actual hactualMem)
        (hfills.growsFrom_eq_false hj hactual hid hname), identifiers_append_blank] at hmem
      exact hfills.foreign actual hactualMem formal (List.mem_of_getElem? hi) hmem
    | none =>
      have hwritten := written_of_default hindex hactual hj expand text
      by_cases hempty : other.defaultText = ""
      · -- Nothing is put in, so that this is not the parameter.
        rw [if_pos (.inl hempty)] at hwritten
        have hsame : formal.name = other.name :=
          String.toList_inj.mp ((hstays hwritten hmem).trans hname.symm)
        obtain rfl := hback.index_eq hi hj hsame
        obtain rfl : formal = other := Option.some.inj (hi.symm.trans hj)
        exact hvalue.elim (fun hlt => by simp at hactual; omega) fun hdefault => hdefault hempty
      · have hwhole : other.defaultText ≠ text := by
          rintro rfl
          obtain ⟨hlt, rfl⟩ := List.getElem?_eq_some_iff.mp hj
          exact Nat.lt_irrefl j (hback.earlier j hlt j hlt (hname ▸ hx))
        obtain ⟨new, hnew, hnotMem⟩ := hexpand j other hj (hname ▸ hx)
        rw [hwritten, if_neg (not_or.mpr ⟨hempty, hwhole⟩), hnew, Option.map_some,
          Option.getD_some, identifiers_append_blank] at hmem
        exact hnotMem hmem

theorem notMem_identifiers_expandWithin (hback : LooksBack formals) (hfills : Fills actuals formals)
    (hstands : StandsForText formals actuals formal) {depth : Nat}
    (h : MentionsBelow formals depth text) :
    formal.name.toList ∉ identifiers (expandWithin formals actuals depth text).toList := by
  induction depth generalizing text with
  | zero =>
    refine notMem_identifiers_rewriteWith hback hfills hstands fun j other hj hmem => ?_
    obtain ⟨hlt, rfl⟩ := List.getElem?_eq_some_iff.mp hj
    exact absurd (h j hlt hmem) (Nat.not_lt_zero j)
  | succ depth ih =>
    refine notMem_identifiers_rewriteWith hback hfills hstands fun j other hj hmem => ?_
    obtain ⟨hlt, rfl⟩ := List.getElem?_eq_some_iff.mp hj
    refine ⟨_, rfl, ih fun k hk hmentioned => ?_⟩
    have hbound := h j hlt hmem
    have hearlier := hback.earlier j hlt k hk hmentioned
    omega

end LeftOver

/-! ## Runs of the expansion -/

/-- A default value that is put into a text: that of the first parameter with some name in the text,
if it has no actual argument. -/
def Draws (formals actuals : List Argument) (text value : String) : Prop :=
  ∃ x ∈ identifiers text.toList, ∃ index formal,
    (formals.findIdx? fun formal => formal.name == String.ofList x) = some index ∧
      actuals[index]? = none ∧ formals[index]? = some formal ∧ formal.defaultText = value ∧
      value ≠ "" ∧ value ≠ text

/-- The runs of the expansion that come to an end. Each default value that is drawn in has been
expanded on its own, one level deeper, and on the last level none is expanded. -/
inductive Expands (formals actuals : List Argument) : Nat → String → String → Prop where
  | last (text : String) :
      Expands formals actuals 0 text (rewriteWith formals actuals (fun _ => none) text)
  | level {levels : Nat} {text : String} {expanded : String → String}
      (h : ∀ value, Draws formals actuals text value →
        Expands formals actuals levels value (expanded value)) :
      Expands formals actuals (levels + 1) text
        (rewriteWith formals actuals (fun value => some (expanded value)) text)

section Runs

variable {formals actuals : List Argument}

theorem rewriteWith_congr {expand expand' : String → Option String}
    (h : ∀ value, Draws formals actuals text value → expand value = expand' value) :
    rewriteWith formals actuals expand text = rewriteWith formals actuals expand' text := by
  rw [← String.toList_inj, toList_rewriteWith, toList_rewriteWith]
  congr 2
  refine mapIdentifiers_congr fun x hx => ?_
  cases hindex : formals.findIdx? fun formal => formal.name == String.ofList x with
  | none => rw [written_of_none hindex, written_of_none hindex]
  | some index =>
    obtain ⟨formal, hformal, -⟩ := findIdx?_eq_some hindex
    cases hactual : actuals[index]? with
    | some actual =>
      unfold written replacement?
      rw [hindex]
      dsimp only
      rw [hactual]
    | none =>
      rw [written_of_default hindex hactual hformal, written_of_default hindex hactual hformal]
      split
      · rfl
      · next hstays =>
        obtain ⟨hempty, hwhole⟩ := not_or.mp hstays
        rw [h _ ⟨x, hx, index, formal, hindex, hactual, hformal, rfl, hempty, hwhole⟩]

theorem expands_iff {levels : Nat} {text result : String} :
    Expands formals actuals levels text result ↔
      result = expandWithin formals actuals levels text := by
  constructor
  · intro h
    induction h with
    | last text => rfl
    | level h ih =>
      exact rewriteWith_congr fun value hvalue => congrArg some (ih value hvalue)
  · rintro rfl
    induction levels generalizing text with
    | zero => exact .last text
    | succ levels ih => exact .level fun value _ => ih

end Runs

/-- Default values are expanded completely. If they look back only and the actual arguments are
foreign to the parameters, then no parameter that stands for something is left over. Whatever the
default values are, the expansion comes to an end, with one result. -/
theorem substitute_expands_defaults (text : String) (formals actuals : List Argument) :
    (LooksBack formals → Fills actuals formals → ∀ formal, StandsForText formals actuals formal →
        formal.name.toList ∉ identifiers (substitute text formals actuals).toList) ∧
      ∀ result, Expands formals actuals formals.length text result ↔
        result = substitute text formals actuals := by
  refine ⟨fun hback hfills formal hstands => ?_, fun result => expands_iff⟩
  exact notMem_identifiers_expandWithin hback hfills hstands fun i hi _ => hi

/-- A default value inside of another one is expanded, and default values that name each other are
expanded as many levels deep as there are parameters. -/
theorem substitute_expands_defaults_nested :
    let formals : List Argument := [
      { typeText := "class", name := "T" },
      { typeText := "class", name := "A", defaultText := "Pool<T>" },
      { typeText := "class", name := "M", defaultText := "Map<T, A>" }]
    let actuals : List Argument := [{ typeText := "int" }]
    let text := "(M *m, A::Node n, T t[A])"
    let circle : List Argument := [
      { typeText := "class", name := "T", defaultText := "U*" },
      { typeText := "class", name := "U", defaultText := "T&" }]
    (LooksBack formals ∧ Fills actuals formals ∧
        substitute text formals actuals = "(Map<int, Pool<int>> *m, A::Node n, int t[Pool<int>])" ∧
        ∀ formal ∈ formals,
          formal.name.toList ∉ identifiers (substitute text formals actuals).toList) ∧
      ∀ result, Expands circle [] 2 "T" result ↔ result = "T& *" := by
  intro formals actuals text circle
  have hback : LooksBack formals := by decide +kernel
  have hfills : Fills actuals formals := by decide +kernel
  have hstands : ∀ formal ∈ formals, StandsForText formals actuals formal := by
    simp only [formals, List.forall_mem_cons]
    exact ⟨⟨0, rfl, .inl (by decide)⟩, ⟨1, rfl, .inr (by decide)⟩, ⟨2, rfl, .inr (by decide)⟩, nofun⟩
  have hcircle : substitute "T" circle [] = "T& *" := by decide +kernel
  refine ⟨⟨hback, hfills, by decide +kernel, fun formal hformal => ?_⟩, fun result => ?_⟩
  · exact (substitute_expands_defaults text formals actuals).1 hback hfills formal
      (hstands formal hformal)
  · rw [← hcircle]
    exact (substitute_expands_defaults "T" circle []).2 result

end SymbolAtlas.Substitution
