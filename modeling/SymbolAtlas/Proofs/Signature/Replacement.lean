import SymbolAtlas.Proofs.Signature.Identifiers
import SymbolAtlas.Proofs.Signature.Reading

/-!
# Replacing what an argument list names

An argument list in which identifiers are replaced is cut at the same places as the list itself, if
what is put in looks like a type from outside: its brackets nest, and nothing outside of them would
end a declaration. So reading and replacing can be done in either order.
-/

set_option autoImplicit false

namespace SymbolAtlas.Substitution

open Text

variable {x : List Char}

/-! ## What is put in -/

/-- Brackets nest in a text that begins `level` brackets deep, none of them is square, and no comma
and no equals sign stands outside of them. -/
def isNestedFrom (level : Nat) : List Char → Bool
  | [] => level == 0
  | c :: rest =>
    if isOpening c then c != '[' && isNestedFrom (level + 1) rest
    else if isClosing c then c != ']' && level != 0 && isNestedFrom (level - 1) rest
    else (level != 0 || c != ',' && c != '=') && isNestedFrom level rest

/-- A text that can stand for a type: nothing in it would be taken for a part of the declaration
around it. -/
structure IsInert (t : List Char) : Prop where
  isNested : isNestedFrom 0 t = true
  isSolid : withoutBlanks t ≠ []
  colon : (withoutBlanks t).getLast? ≠ some ':'

instance (t : List Char) : Decidable (IsInert t) :=
  decidable_of_iff (isNestedFrom 0 t = true ∧ withoutBlanks t ≠ [] ∧
      (withoutBlanks t).getLast? ≠ some ':')
    ⟨fun h => ⟨h.1, h.2.1, h.2.2⟩, fun h => ⟨h.isNested, h.isSolid, h.colon⟩⟩

section Nested

variable {level : Nat} {c : Char} {t rest : List Char}

/-- What is known of the first character of a nested text, and of the level behind it. -/
theorem isNestedFrom_cons (h : isNestedFrom level (c :: t) = true) :
    ∃ next : Nat, (level : Int) + nestingStep c = next ∧ isNestedFrom next t = true ∧
      c ≠ '[' ∧ c ≠ ']' ∧ (c = ',' ∨ c = '=' → level ≠ 0) := by
  rw [isNestedFrom] at h
  unfold nestingStep
  cases hopen : isOpening c with
  | true =>
    have hne {d : Char} (hd : isOpening d = false) : c ≠ d := by
      rintro rfl
      cases hopen.symm.trans hd
    simp only [hopen, if_true, Bool.and_eq_true, bne_iff_ne] at h
    refine ⟨level + 1, rfl, h.2, h.1, hne (by decide), ?_⟩
    rintro (hc | hc)
    · exact absurd hc (hne (by decide))
    · exact absurd hc (hne (by decide))
  | false =>
    have hbracket : c ≠ '[' := by
      rintro rfl
      cases hopen
    cases hclose : isClosing c with
    | true =>
      simp only [hopen, hclose, Bool.false_eq_true, if_true, if_false, Bool.and_eq_true,
        bne_iff_ne] at h
      exact ⟨level - 1, by simp; omega, h.2, hbracket, h.1.1, fun _ => h.1.2⟩
    | false =>
      have hbracket' : c ≠ ']' := by
        rintro rfl
        cases hclose
      simp only [hopen, hclose, Bool.false_eq_true, if_false, Bool.and_eq_true, Bool.or_eq_true,
        bne_iff_ne] at h
      refine ⟨level, Int.add_zero _, h.2, hbracket, hbracket', fun hc => ?_⟩
      tauto

/-- A reader passes over a text in a state: it neither stops there nor is it in another state
afterwards. -/
def Passes {σ : Type} (step : σ → Char → Option σ) (s : σ) (t : List Char) : Prop :=
  ∀ rest, scan step s (t ++ rest) = (scan step s rest).map fun cut => (t ++ cut.1, cut.2)

/-- A reader whose states follow the levels of nested texts does not stop inside of such a text. -/
theorem stateAfter_of_isNestedFrom {σ : Type} {step : σ → Char → Option σ} {s : Nat → σ}
    (hstep : ∀ {level next : Nat} {c}, (level : Int) + nestingStep c = next → c ≠ '[' →
      (c = ',' ∨ c = '=' → level ≠ 0) → step (s level) c = some (s next))
    (h : isNestedFrom level t = true) : stateAfter step (s level) t = some (s 0) := by
  induction t generalizing level with
  | nil =>
    obtain rfl : level = 0 := by simpa [isNestedFrom] using h
    rfl
  | cons c t ih =>
    obtain ⟨next, hnext, ht, hc, -, hplain⟩ := isNestedFrom_cons h
    rw [stateAfter, hstep hnext hc hplain]
    exact ih ht

theorem closeStep_of_nestingStep {level next : Nat} (h : (level : Int) + nestingStep c = next) :
    closeStep level c = some next := by
  unfold nestingStep at h
  unfold closeStep
  split at h
  · next hopen =>
    rw [if_pos hopen]
    congr 1
    omega
  · next hopen =>
    rw [if_neg hopen]
    split at h
    · next hclose =>
      rw [if_pos hclose, if_neg (by omega)]
      congr 1
      omega
    · next hclose =>
      rw [if_neg hclose]
      congr 1
      omega

theorem nestingStep_eq (hopen : isOpening c = false) (hclose : isClosing c = false) :
    nestingStep c = 0 := by
  rw [nestingStep, hopen, hclose]
  rfl

theorem cutDefaultFrom_append (h : isNestedFrom level t = true) {outer : Int} (houter : 0 ≤ outer)
    (last : Option Char) :
    Argument.cutDefaultFrom (outer + level) last (t ++ rest)
      = (Argument.cutDefaultFrom outer (t.getLast?.or last) rest).map
          fun cut => (t ++ cut.1, cut.2) := by
  induction t generalizing level last with
  | nil =>
    obtain rfl : level = 0 := by simpa [isNestedFrom] using h
    simp
  | cons c t ih =>
    obtain ⟨next, hnext, ht, -, -, hplain⟩ := isNestedFrom_cons h
    have hnot : ¬ Argument.IsCut (outer + level) last c (t ++ rest) := by
      rintro ⟨heq, hzero, -⟩
      have := hplain (.inr heq)
      omega
    rw [List.cons_append, Argument.cutDefaultFrom_cons_of_not hnot, Int.add_assoc, hnext, ih ht,
      getLast?_cons_or, Option.map_map]
    rfl

end Nested

/-! ## Identifiers that are replaced -/

/-- A text that is one identifier. -/
def IsIdentifier (x : List Char) : Prop :=
  ∃ c word, x = c :: word ∧ beginsIdentifier c = true ∧ ∀ d ∈ word, continuesIdentifier d = true

/-- What is put in closes off the text before it, and can stand for a type. -/
structure PutsTypes (f : List Char → List Char) : Prop where
  closesOff : ClosesOff f
  isInert {x : List Char} (hx : IsIdentifier x) : f x = x ∨ IsInert (f x)

theorem isIdentifier_takeWhile {c : Char} (hc : beginsIdentifier c = true) (rest : List Char) :
    IsIdentifier (c :: rest.takeWhile continuesIdentifier) :=
  ⟨c, _, rfl, hc, List.all_eq_true.mp List.all_takeWhile⟩

theorem IsIdentifier.continues (hx : IsIdentifier x) {c : Char} (hc : c ∈ x) :
    continuesIdentifier c = true := by
  obtain ⟨d, word, rfl, hd, hword⟩ := hx
  rcases List.mem_cons.mp hc with rfl | hc
  · exact continuesIdentifier_of_begins hd
  · exact hword c hc

section Characters

variable {c : Char} (hc : continuesIdentifier c = true)

include hc

theorem ne_of_continuesIdentifier {d : Char} (hd : continuesIdentifier d = false) : c ≠ d := by
  rintro rfl
  rw [hc] at hd
  cases hd

theorem isOpening_of_continuesIdentifier : isOpening c = false := by
  have hne {d : Char} := ne_of_continuesIdentifier hc (d := d)
  simp [isOpening, hne (d := '<') (by decide), hne (d := '(') (by decide),
    hne (d := '[') (by decide), hne (d := '\x7b') (by decide)]

theorem isClosing_of_continuesIdentifier : isClosing c = false := by
  have hne {d : Char} := ne_of_continuesIdentifier hc (d := d)
  simp [isClosing, hne (d := '>') (by decide), hne (d := ')') (by decide),
    hne (d := ']') (by decide), hne (d := '\x7d') (by decide)]

theorem isBlank_of_continuesIdentifier : isBlank c = false := by
  by_contra hb
  rw [continuesIdentifier_of_isBlank (by simpa using hb)] at hc
  cases hc

end Characters

theorem isNestedFrom_of_continues (hx : ∀ c ∈ x, continuesIdentifier c = true) :
    isNestedFrom 0 x = true := by
  induction x with
  | nil => rfl
  | cons c x ih =>
    have hc := hx c List.mem_cons_self
    rw [isNestedFrom, if_neg (by simp [isOpening_of_continuesIdentifier hc]),
      if_neg (by simp [isClosing_of_continuesIdentifier hc]),
      ih fun d hd => hx d (List.mem_cons_of_mem c hd)]
    simp [ne_of_continuesIdentifier hc (by decide : continuesIdentifier ',' = false),
      ne_of_continuesIdentifier hc (by decide : continuesIdentifier '=' = false)]

theorem IsIdentifier.isNestedFrom (hx : IsIdentifier x) : isNestedFrom 0 x = true :=
  isNestedFrom_of_continues fun _ => hx.continues

theorem IsIdentifier.withoutBlanks_eq (hx : IsIdentifier x) : withoutBlanks x = x :=
  List.filter_eq_self.mpr fun _ hc => by simp [isBlank_of_continuesIdentifier (hx.continues hc)]

theorem IsIdentifier.ne_nil (hx : IsIdentifier x) : x ≠ [] := by
  obtain ⟨c, word, rfl, -⟩ := hx
  exact List.cons_ne_nil c word

namespace PutsTypes

variable {f : List Char → List Char} (hf : PutsTypes f) {x : List Char} (hx : IsIdentifier x)

include hf hx

theorem isNestedFrom : isNestedFrom 0 (f x) = true := by
  rcases hf.isInert hx with heq | hinert
  · rw [heq]
    exact hx.isNestedFrom
  · exact hinert.isNested

theorem withoutBlanks_ne_nil : withoutBlanks (f x) ≠ [] := by
  rcases hf.isInert hx with heq | hinert
  · rw [heq, hx.withoutBlanks_eq]
    exact hx.ne_nil
  · exact hinert.isSolid

end PutsTypes

/-! ## Reading what was replaced -/

section Replaced

variable {f : List Char → List Char} {cs : List Char}

theorem mapIdentifiers_identifier_append {x rest : List Char} (hx : IsIdentifier x)
    (hrest : ∀ d ∈ rest.head?, continuesIdentifier d = false) :
    mapIdentifiers f (x ++ rest) = f x ++ mapIdentifiers f rest := by
  obtain ⟨c, word, rfl, hc, hword⟩ := hx
  obtain ⟨htake, hdrop⟩ := span_append hword hrest
  rw [List.cons_append, mapIdentifiers, if_pos hc, htake, hdrop]

theorem cons_eq_identifier_append (c : Char) (rest : List Char) :
    c :: rest = (c :: rest.takeWhile continuesIdentifier) ++ rest.dropWhile continuesIdentifier := by
  rw [List.cons_append, List.takeWhile_append_dropWhile]

theorem head?_of_isPrefix {p : Char → Prop} {x y : List Char} (hy : ∀ d ∈ y.head?, p d)
    (h : x <+: y) : ∀ d ∈ x.head?, p d := by
  intro d hd
  obtain ⟨z, rfl⟩ := h
  refine hy d ?_
  rw [List.head?_append, Option.mem_def.mp hd]
  rfl

/-- A reader whose state is not changed by identifiers or by what is put in for them. `good` is what
has to hold of the state and of the text that follows. -/
structure IgnoresTypes {σ : Type} (step : σ → Char → Option σ) (good : σ → List Char → Prop) :
    Prop where
  passes {s : σ} {cs t : List Char} (h : good s cs) (ht : isNestedFrom 0 t = true) : Passes step s t
  next {s s' : σ} {c : Char} {cs : List Char} (h : good s (c :: cs)) (hstep : step s c = some s') :
    good s' cs
  stays (s : σ) {c : Char} (hc : continuesIdentifier c = true) : step s c = some s

theorem IgnoresTypes.drop {σ : Type} {step : σ → Char → Option σ} {good : σ → List Char → Prop}
    (hstep : IgnoresTypes step good) {s : σ} {x cs : List Char}
    (hx : ∀ c ∈ x, continuesIdentifier c = true) (h : good s (x ++ cs)) : good s cs := by
  induction x with
  | nil => exact h
  | cons c x ih =>
    exact ih (fun d hd => hx d (List.mem_cons_of_mem c hd))
      (hstep.next h (hstep.stays s (hx c List.mem_cons_self)))

/-- A scan that ignores types stops at the same place after a replacement. -/
theorem scan_mapIdentifiers {σ : Type} {step : σ → Char → Option σ} {good : σ → List Char → Prop}
    (hstep : IgnoresTypes step good) (hf : PutsTypes f) {s : σ} (h : good s cs) :
    scan step s (mapIdentifiers f cs)
      = (scan step s cs).map (Prod.map (mapIdentifiers f) (mapIdentifiers f)) := by
  fun_induction mapIdentifiers f cs generalizing s with
  | case1 => rfl
  | case2 c rest hc ih =>
    have hx := isIdentifier_takeWhile hc rest
    have hends := head?_dropWhile_continues rest
    rw [cons_eq_identifier_append c rest] at h ⊢
    generalize c :: rest.takeWhile continuesIdentifier = x at hx h
    generalize rest.dropWhile continuesIdentifier = next at hends ih h
    have hnext : good s next := hstep.drop (fun _ => hx.continues) h
    rw [hstep.passes h (hf.isNestedFrom hx), hstep.passes h hx.isNestedFrom, ih hnext]
    cases hcut : scan step s next with
    | none => rfl
    | some cut =>
      obtain ⟨d, -, heq⟩ := eq_append_of_scan hcut
      have hbefore := mapIdentifiers_identifier_append (f := f) hx
        (head?_of_isPrefix hends ⟨_, heq.symm⟩)
      simp [hbefore]
  | case3 c rest hc ih =>
    cases hs : step s c with
    | none =>
      rw [scan_cons_of_none hs, scan_cons_of_none hs]
      simp [mapIdentifiers]
    | some s' =>
      rw [scan_cons_of_some hs, scan_cons_of_some hs, ih (hstep.next h hs), Option.map_map,
        Option.map_map]
      congr 1
      funext cut
      simp [mapIdentifiers, hc]

theorem ignoresTypes_stopAt : IgnoresTypes (stopAt '[') fun _ _ => True where
  passes _ ht := scan_append_of_stateAfter (stateAfter_of_isNestedFrom (s := fun _ => ())
    (fun _ hc _ => by simp [stopAt, hc]) ht)
  next _ _ := trivial
  stays _ _ hc := by
    simp [stopAt, ne_of_continuesIdentifier hc (by decide : continuesIdentifier '[' = false)]

theorem ignoresTypes_closeStep : IgnoresTypes closeStep fun _ _ => True where
  passes {outer _ _} _ ht := scan_append_of_stateAfter (stateAfter_of_isNestedFrom
    (s := (outer + ·)) (fun hnext _ _ => closeStep_of_nestingStep (by omega)) ht)
  next _ _ := trivial
  stays s _ hc := by
    rw [closeStep, isOpening_of_continuesIdentifier hc, isClosing_of_continuesIdentifier hc]
    rfl

theorem ignoresTypes_splitStep : IgnoresTypes (splitStep ',') StaysAbove where
  passes {outer cs t} h ht := by
    have hnonneg := h.nonneg
    have hstep {level next : Nat} {c : Char} (hnext : level + nestingStep c = next) (_ : c ≠ '[')
        (hplain : c = ',' ∨ c = '=' → level ≠ 0) :
        splitStep ',' (outer + level) c = some (outer + next) := by
      rw [splitStep, if_neg, Int.add_assoc, hnext]
      intro hstop
      have hzero : c = ',' ∧ outer + level = 0 := by simp_all
      have := hplain (.inl hzero.1)
      omega
    have hafter := stateAfter_of_isNestedFrom hstep ht
    rw [Int.natCast_zero, Int.add_zero] at hafter
    exact scan_append_of_stateAfter hafter
  next {level level' c cs} h hstep := by
    unfold splitStep at hstep
    split at hstep
    · cases hstep
    · cases hstep
      exact h.2
  stays level c hc := by
    rw [splitStep, nestingStep_eq (isOpening_of_continuesIdentifier hc)
      (isClosing_of_continuesIdentifier hc)]
    simp [ne_of_continuesIdentifier hc (by decide : continuesIdentifier ',' = false)]

theorem splitFrom_mapIdentifiers (hf : PutsTypes f) {level : Int} (h : StaysAbove level cs) :
    splitFrom ',' level (mapIdentifiers f cs) = (splitFrom ',' level cs).map (mapIdentifiers f) := by
  induction hn : cs.length using Nat.strongRecOn generalizing cs level with
  | ind n ih =>
    have hscan := scan_mapIdentifiers ignoresTypes_splitStep hf h
    cases hcut : scan (splitStep ',') level cs with
    | none =>
      rw [hcut] at hscan
      rw [splitFrom_of_scan_eq_none hscan, splitFrom_of_scan_eq_none hcut, List.map_singleton]
    | some cut =>
      rw [hcut] at hscan
      rw [splitFrom_of_scan_eq_some hscan, splitFrom_of_scan_eq_some hcut, List.map_cons,
        ih _ (hn ▸ length_lt_of_scan hcut) (staysAbove_of_split h hcut).2 rfl]

theorem cutAtClose_mapIdentifiers (hf : PutsTypes f) (cs : List Char) :
    cutAtClose (mapIdentifiers f cs)
      = (mapIdentifiers f (cutAtClose cs).1, mapIdentifiers f (cutAtClose cs).2) := by
  unfold cutAtClose
  rw [closeFrom_eq_scan, closeFrom_eq_scan, scan_mapIdentifiers ignoresTypes_closeStep hf trivial]
  cases scan closeStep 0 cs with
  | none => simp [mapIdentifiers]
  | some cut => rfl

/-! ## Default values -/

section Default

open Argument

theorem head?_mapIdentifiers (hf : PutsTypes f) (cs : List Char) :
    (mapIdentifiers f cs).head? = some '=' ↔ cs.head? = some '=' := by
  cases cs with
  | nil => rw [mapIdentifiers]
  | cons c rest =>
    rw [mapIdentifiers]
    cases hc : beginsIdentifier c with
    | false => simp
    | true =>
      have hx := isIdentifier_takeWhile hc rest
      have hne := ne_of_continuesIdentifier (continuesIdentifier_of_begins hc)
        (by decide : continuesIdentifier '=' = false)
      have hnested := hf.isNestedFrom hx
      have hsolid := hf.withoutBlanks_ne_nil hx
      generalize f (c :: rest.takeWhile continuesIdentifier) = t at hnested hsolid
      cases t with
      | nil => exact absurd rfl hsolid
      | cons d t =>
        have hd : d ≠ '=' := by
          rintro rfl
          obtain ⟨-, -, -, -, -, hplain⟩ := isNestedFrom_cons hnested
          exact hplain (.inr rfl) rfl
        simp [hd, hne]

theorem joinsEquals_of_continuesIdentifier {c : Char} (hc : continuesIdentifier c = true) :
    joinsEquals c = false := by
  unfold joinsEquals
  simp [ne_of_continuesIdentifier hc (by decide : continuesIdentifier '=' = false),
    ne_of_continuesIdentifier hc (by decide : continuesIdentifier '<' = false),
    ne_of_continuesIdentifier hc (by decide : continuesIdentifier '>' = false),
    ne_of_continuesIdentifier hc (by decide : continuesIdentifier '!' = false)]

theorem PutsTypes.joinsEquals_getLast? (hf : PutsTypes f) {x : List Char} (hx : IsIdentifier x)
    (last : Option Char) :
    ((f x).getLast?.or last).any joinsEquals = false ∧
      (x.getLast?.or last).any joinsEquals = false := by
  have hself : (x.getLast?.or last).any joinsEquals = false := by
    obtain ⟨c, hc⟩ := Option.ne_none_iff_exists'.mp (mt List.getLast?_eq_none_iff.mp hx.ne_nil)
    rw [hc]
    exact joinsEquals_of_continuesIdentifier (hx.continues (List.mem_of_getLast? hc))
  refine ⟨?_, hself⟩
  rcases hf.closesOff x with heq | ⟨y, heq⟩
  · rw [heq]
    exact hself
  · rw [heq, List.getLast?_concat]
    rfl

/-- A replacement in an argument is one in both of its halves. -/
theorem cutDefaultFrom_mapIdentifiers (hf : PutsTypes f) {level : Int} {last last' : Option Char}
    (hlast : last'.any joinsEquals = last.any joinsEquals) (h : StaysAbove level cs) :
    cutDefaultFrom level last' (mapIdentifiers f cs)
      = (cutDefaultFrom level last cs).map (Prod.map (mapIdentifiers f) (mapIdentifiers f)) := by
  have hpass {t : List Char} (ht : isNestedFrom 0 t = true) {level : Int} (hlevel : 0 ≤ level)
      (last : Option Char) (rest : List Char) :
      cutDefaultFrom level last (t ++ rest)
        = (cutDefaultFrom level (t.getLast?.or last) rest).map fun cut => (t ++ cut.1, cut.2) := by
    have happend : cutDefaultFrom (level + (0 : Nat)) last (t ++ rest) = _ :=
      cutDefaultFrom_append ht hlevel last
    simpa using happend
  fun_induction mapIdentifiers f cs generalizing level last last' with
  | case1 => rfl
  | case2 c rest hc ih =>
    have hx := isIdentifier_takeWhile hc rest
    have hends := head?_dropWhile_continues rest
    rw [cons_eq_identifier_append c rest] at h ⊢
    generalize c :: rest.takeWhile continuesIdentifier = x at hx h
    generalize rest.dropWhile continuesIdentifier = next at hends ih h
    have hnext : StaysAbove level next := ignoresTypes_splitStep.drop (fun _ => hx.continues) h
    have hsame : ((f x).getLast?.or last').any joinsEquals = (x.getLast?.or last).any joinsEquals := by
      rw [(hf.joinsEquals_getLast? hx last').1, (hf.joinsEquals_getLast? hx last).2]
    rw [hpass (hf.isNestedFrom hx) h.nonneg, hpass hx.isNestedFrom h.nonneg, ih hsame hnext]
    cases hcut : cutDefaultFrom level (x.getLast?.or last) next with
    | none => rfl
    | some cut =>
      have hbefore : mapIdentifiers f (x ++ cut.1) = f x ++ mapIdentifiers f cut.1 :=
        mapIdentifiers_identifier_append hx
          (head?_of_isPrefix hends ⟨_, (cutDefaultFrom_eq_some hcut).1.symm⟩)
      simp [hbefore]
  | case3 c rest hc ih =>
    have hiff : IsCut level last' c (mapIdentifiers f rest) ↔ IsCut level last c rest := by
      unfold IsCut
      rw [hlast, Ne, head?_mapIdentifiers hf]
    by_cases hcut : IsCut level last c rest
    · rw [cutDefaultFrom_cons_of_isCut hcut, cutDefaultFrom_cons_of_isCut (hiff.mpr hcut)]
      simp [mapIdentifiers]
    · rw [cutDefaultFrom_cons_of_not hcut, cutDefaultFrom_cons_of_not (mt hiff.mp hcut),
        ih rfl h.2, Option.map_map, Option.map_map]
      congr 1
      funext cut
      simp [mapIdentifiers, hc]

theorem cutDefault_mapIdentifiers (hf : PutsTypes f) (h : StaysAbove 0 cs) :
    cutDefault (mapIdentifiers f cs)
      = (mapIdentifiers f (cutDefault cs).1, mapIdentifiers f (cutDefault cs).2) := by
  unfold cutDefault
  rw [cutDefaultFrom_mapIdentifiers hf rfl h]
  cases cutDefaultFrom 0 none cs with
  | none => simp [mapIdentifiers]
  | some cut => rfl

end Default

/-! ## Blanks -/

section Blanks

variable {free free' : Option Char → Char → Bool} {last : Option Char} {gap gap' : Bool}
variable {x y : List Char}

theorem respaced_afterBlank (h : Respaced free last gap gap' x y) (last' : Option Char) :
    Respaced free last' true true x y := by
  induction h with
  | nil => exact .nil last' true true
  | blankLeft hb _ ih => exact .blankLeft hb ih
  | blankRight hb _ ih => exact .blankRight hb ih
  | char hc _ h => exact .char hc (.inl rfl) h

theorem respaced_append_left {t : List Char} (hfree : gap = gap' ∨ ∀ c, free last c = true)
    (h : ∀ last, Respaced free last true true x y) :
    Respaced free last gap gap' (t ++ ' ' :: x) (t ++ ' ' :: y) := by
  induction t generalizing last gap gap' with
  | nil => exact .blankLeft rfl (.blankRight rfl (h last))
  | cons c t ih =>
    cases hc : isBlank c with
    | true => exact .blankLeft hc (.blankRight hc (ih (.inl rfl)))
    | false => exact .char hc (hfree.imp_right (· c)) (ih (.inl rfl))

theorem respaced_append_solid {t : List Char} (ht : ∀ c ∈ t, isBlank c = false)
    (h : Respaced free (t.getLast?.or last) false false x y) :
    Respaced free last false false (t ++ x) (t ++ y) := by
  induction t generalizing last with
  | nil => exact h
  | cons c t ih =>
    refine .char (ht c List.mem_cons_self) (.inl rfl)
      (ih (fun d hd => ht d (List.mem_cons_of_mem c hd)) ?_)
    rwa [getLast?_cons_or] at h

/-- The rest of an identifier is the same in both texts, and what follows it differs in free blanks
only. -/
theorem respaced_dropWhile (hfree : KeepsApart free) {c : Char} (hc : continuesIdentifier c = true)
    (h : Respaced free (some c) false false x y) :
    y.takeWhile continuesIdentifier = x.takeWhile continuesIdentifier ∧
      Respaced free ((x.takeWhile continuesIdentifier).getLast?.or (some c)) false false
        (x.dropWhile continuesIdentifier) (y.dropWhile continuesIdentifier) := by
  have hapart {c d : Char} (hc : continuesIdentifier c = true) (hd : continuesIdentifier d = true) :
      free (some c) d = false := by
    by_contra hfree'
    rcases hfree (some c) d (by simpa using hfree') with hends | hends
    · simp [hc] at hends
    · rw [hd] at hends
      cases hends
  induction x generalizing c y with
  | nil =>
    cases h with
    | nil => exact ⟨rfl, .nil _ false false⟩
    | blankRight hb h =>
      have hends := continuesIdentifier_of_isBlank hb
      rw [List.takeWhile_cons_of_neg (by simp [hends]), List.dropWhile_cons_of_neg (by simp [hends])]
      exact ⟨rfl, .blankRight hb h⟩
  | cons d x ih =>
    cases hd : continuesIdentifier d with
    | true =>
      have hsolid := isBlank_of_continuesIdentifier hd
      cases h with
      | blankLeft hb => exact absurd (hsolid.symm.trans hb) Bool.false_ne_true
      | blankRight _ h =>
        exact absurd ((hapart hc hd).symm.trans (h.free_of_gap hsolid)) Bool.false_ne_true
      | char _ _ h =>
        obtain ⟨htake, hdrop⟩ := ih hd h
        rw [List.takeWhile_cons_of_pos hd, List.takeWhile_cons_of_pos hd,
          List.dropWhile_cons_of_pos hd, List.dropWhile_cons_of_pos hd, htake, getLast?_cons_or]
        exact ⟨rfl, hdrop⟩
    | false =>
      -- The second text goes on with an identifier only if the first one does.
      have hy : ∀ e ∈ y.head?, continuesIdentifier e = false := by
        intro e he
        by_contra hcontinues
        have hcontinues : continuesIdentifier e = true := by simpa using hcontinues
        have hhead := h.symm.head?_eq_some (isBlank_of_continuesIdentifier hcontinues)
          (hapart hc hcontinues) he
        obtain rfl : d = e := by simpa using hhead
        rw [hd] at hcontinues
        cases hcontinues
      have hends : y.takeWhile continuesIdentifier = [] ∧ y.dropWhile continuesIdentifier = y := by
        cases y with
        | nil => exact ⟨rfl, rfl⟩
        | cons e y => simp [hy e rfl]
      rw [List.takeWhile_cons_of_neg (by simp [hd]), List.dropWhile_cons_of_neg (by simp [hd]),
        hends.1, hends.2]
      exact ⟨rfl, h⟩

theorem respaced_mapIdentifiers (hfree : KeepsApart free)
    (hmono : ∀ last c, free last c = true → free' last c = true)
    (hbegins : ∀ last c d, beginsIdentifier c = true → free last c = true → free' last d = true)
    (hf : ClosesOff f) (h : Respaced free last gap gap' x y) :
    Respaced free' last gap gap' (mapIdentifiers f x) (mapIdentifiers f y) := by
  -- The induction is on the length of both texts, as an identifier is passed at once.
  induction hn : x.length + y.length using Nat.strongRecOn generalizing x y last gap gap' with
  | ind n ih =>
    cases h with
    | nil =>
      rw [mapIdentifiers]
      exact .nil last gap gap'
    | @blankLeft _ _ _ b x y hb h =>
      rw [mapIdentifiers_cons_of_ends (continuesIdentifier_of_isBlank hb)]
      exact .blankLeft hb (ih _ (by simp at hn; omega) h rfl)
    | @blankRight _ _ _ b x y hb h =>
      rw [mapIdentifiers_cons_of_ends (continuesIdentifier_of_isBlank hb)]
      exact .blankRight hb (ih _ (by simp at hn; omega) h rfl)
    | @char _ _ _ c x y hc hgap h =>
      simp only [List.length_cons] at hn
      rw [mapIdentifiers, mapIdentifiers]
      cases hbegin : beginsIdentifier c with
      | false => exact .char hc (hgap.imp_right (hmono _ _)) (ih _ (by omega) h rfl)
      | true =>
        obtain ⟨htake, hdrop⟩ := respaced_dropWhile hfree (continuesIdentifier_of_begins hbegin) h
        have hx := isIdentifier_takeWhile hbegin x
        have hlength : (x.dropWhile continuesIdentifier).length
            + (y.dropWhile continuesIdentifier).length < n := by
          have := (List.dropWhile_suffix (l := x) continuesIdentifier).length_le
          have := (List.dropWhile_suffix (l := y) continuesIdentifier).length_le
          omega
        have hnext := ih _ hlength hdrop rfl
        rw [htake]
        rcases hf (c :: x.takeWhile continuesIdentifier) with heq | ⟨t, heq⟩
        · rw [heq]
          refine .char hc (hgap.imp_right (hmono _ _)) (respaced_append_solid (fun d hd => ?_) hnext)
          exact isBlank_of_continuesIdentifier (hx.continues (List.mem_cons_of_mem c hd))
        · rw [heq, List.append_assoc, List.append_assoc]
          exact respaced_append_left (hgap.imp_right fun hfree d => hbegins last c d hbegin hfree)
            (respaced_afterBlank hnext)

end Blanks

end Replaced

end SymbolAtlas.Substitution
