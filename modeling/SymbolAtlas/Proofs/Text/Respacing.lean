import SymbolAtlas.Text.Spacing

/-!
# Texts that differ in their blanks

Tidying and normalization change nothing but blanks, and drop a blank only where that joins nothing
which has to stay apart. Both are told by one relation between two texts, which says where blanks
are free to stand or not.
-/

set_option autoImplicit false

namespace SymbolAtlas.Text

theorem span_append {p : Char → Bool} {cs rest : List Char} (hcs : ∀ c ∈ cs, p c = true)
    (hrest : ∀ c ∈ rest.head?, p c = false) :
    (cs ++ rest).takeWhile p = cs ∧ (cs ++ rest).dropWhile p = rest := by
  rw [List.takeWhile_append_of_pos hcs, List.dropWhile_append_of_pos hcs]
  cases rest with
  | nil => simp
  | cons c rest =>
    have hc : p c = false := hrest c rfl
    simp [hc]

/-- The text without its blanks. -/
def withoutBlanks (cs : List Char) : List Char :=
  cs.filter fun c => !isBlank c

theorem withoutBlanks_append (x y : List Char) :
    withoutBlanks (x ++ y) = withoutBlanks x ++ withoutBlanks y :=
  List.filter_append x y

/-- Two texts with the same characters apart from blanks, and with blanks between the same ones,
except where they are free. `last` is the character that was passed last, and `gap` and `gap'` say
whether blanks have been passed since in the first and in the second text. -/
inductive Respaced (free : Option Char → Char → Bool) :
    Option Char → Bool → Bool → List Char → List Char → Prop where
  | nil (last : Option Char) (gap gap' : Bool) : Respaced free last gap gap' [] []
  | blankLeft {last : Option Char} {gap gap' : Bool} {b : Char} {x y : List Char}
      (hb : isBlank b = true) (h : Respaced free last true gap' x y) :
      Respaced free last gap gap' (b :: x) y
  | blankRight {last : Option Char} {gap gap' : Bool} {b : Char} {x y : List Char}
      (hb : isBlank b = true) (h : Respaced free last gap true x y) :
      Respaced free last gap gap' x (b :: y)
  | char {last : Option Char} {gap gap' : Bool} {c : Char} {x y : List Char}
      (hc : isBlank c = false) (hgap : gap = gap' ∨ free last c = true)
      (h : Respaced free (some c) false false x y) : Respaced free last gap gap' (c :: x) (c :: y)

/-- Two whole texts that differ in blanks where these are free. -/
abbrev Alike (free : Option Char → Char → Bool) (x y : List Char) : Prop :=
  Respaced free none false false x y

/-- Where tidying drops blanks: at the beginning, just inside of a bracket and before a comma. -/
def tidyDrops (last : Option Char) (c : Char) : Bool :=
  (last.all fun d => d == '(' || d == '<' || d == '[') || c == ',' || c == ')' || c == '>' || c == ']'

/-- Where normalization drops blanks: everywhere but between two word characters. -/
def normalizeDrops (last : Option Char) (c : Char) : Bool :=
  !(last.any isWordChar && isWordChar c)

namespace Respaced

variable {free free' : Option Char → Char → Bool} {last : Option Char} {gap gap' gap'' : Bool}
variable {x y z : List Char}

/-! ## The relation -/

theorem mono (h : Respaced free last gap gap' x y)
    (hfree : ∀ last c, free last c = true → free' last c = true) :
    Respaced free' last gap gap' x y := by
  induction h with
  | nil last gap gap' => exact .nil last gap gap'
  | blankLeft hb _ ih => exact .blankLeft hb ih
  | blankRight hb _ ih => exact .blankRight hb ih
  | char hc hgap _ ih => exact .char hc (hgap.imp_right (hfree _ _)) ih

theorem refl (free : Option Char → Char → Bool) (last : Option Char) (gap : Bool) (x : List Char) :
    Respaced free last gap gap x x := by
  induction x generalizing last gap with
  | nil => exact .nil last gap gap
  | cons c x ih =>
    cases hc : isBlank c with
    | true => exact .blankLeft hc (.blankRight hc (ih last true))
    | false => exact .char hc (.inl rfl) (ih (some c) false)

theorem symm (h : Respaced free last gap gap' x y) : Respaced free last gap' gap y x := by
  induction h with
  | nil last gap gap' => exact .nil last gap' gap
  | blankLeft hb _ ih => exact .blankRight hb ih
  | blankRight hb _ ih => exact .blankLeft hb ih
  | char hc hgap _ ih => exact .char hc (hgap.imp_left Eq.symm) ih

theorem nil_left (h : Respaced free last gap gap' [] y) (last' : Option Char) (gap₁ gap₂ : Bool) :
    Respaced free last' gap₁ gap₂ [] y := by
  induction y generalizing gap gap' gap₂ with
  | nil => exact .nil last' gap₁ gap₂
  | cons b y ih =>
    cases h with
    | blankRight hb h => exact .blankRight hb (ih h true)

theorem of_blank_left {b : Char} (hb : isBlank b = true) (h : Respaced free last gap gap' (b :: x) y) :
    Respaced free last true gap' x y := by
  induction y generalizing gap' with
  | nil =>
    cases h with
    | blankLeft _ h => exact h
  | cons c y ih =>
    cases h with
    | blankLeft _ h => exact h
    | blankRight hc h => exact .blankRight hc (ih h)
    | char hc => exact absurd (hc.symm.trans hb) Bool.false_ne_true

theorem trans (h : Respaced free last gap gap' x y) (h' : Respaced free last gap' gap'' y z) :
    Respaced free last gap gap'' x z := by
  induction h generalizing gap'' z with
  | nil last gap gap' => exact h'.nil_left last gap gap''
  | blankLeft hb _ ih => exact .blankLeft hb (ih h')
  | blankRight hb _ ih => exact ih (h'.of_blank_left hb)
  | @char last gap gap' c x y hc hgap h ih =>
    -- The same character comes next in the third text, perhaps behind blanks.
    induction z generalizing gap'' with
    | nil =>
      cases h' with
      | blankLeft hb => exact absurd (hc.symm.trans hb) Bool.false_ne_true
    | cons d z ihz =>
      cases h' with
      | blankLeft hb => exact absurd (hc.symm.trans hb) Bool.false_ne_true
      | blankRight hb h' => exact .blankRight hb (ihz h')
      | char _ hgap' h' =>
        refine .char hc ?_ (ih h')
        rcases hgap with rfl | hfree
        · exact hgap'
        · exact .inr hfree

theorem withoutBlanks_eq (h : Respaced free last gap gap' x y) :
    withoutBlanks x = withoutBlanks y := by
  unfold withoutBlanks
  induction h with
  | nil => rfl
  | blankLeft hb _ ih | blankRight hb _ ih => simpa [hb] using ih
  | char hc _ _ ih => simpa [hc] using ih

end Respaced

/-! ## Trimming -/

section Trimming

variable (free : Option Char → Char → Bool) (last : Option Char) (gap : Bool)

theorem trimEnd_cons (c : Char) (x : List Char) :
    trimEnd (c :: x) = if trimEnd x = [] ∧ isBlank c = true then [] else c :: trimEnd x := by
  unfold trimEnd
  rw [List.reverse_cons, List.dropWhile_append]
  cases hx : x.reverse.dropWhile isBlank with
  | nil => by_cases hc : isBlank c = true <;> simp [hc]
  | cons d rest => simp

theorem respaced_trimEnd (x : List Char) : Respaced free last gap gap x (trimEnd x) := by
  induction x generalizing last gap with
  | nil => exact .nil last gap gap
  | cons c x ih =>
    rw [trimEnd_cons]
    split
    · next hend =>
      rw [hend.1] at ih
      exact .blankLeft hend.2 ((ih last true).symm.nil_left last gap true).symm
    · cases hc : isBlank c with
      | true => exact .blankLeft hc (.blankRight hc (ih last true))
      | false => exact .char hc (.inl rfl) (ih (some c) false)

variable {free} (hfree : ∀ c, free none c = true)

include hfree

theorem respaced_trimStart (gap gap' : Bool) (x : List Char) :
    Respaced free none gap gap' x (trimStart x) := by
  unfold trimStart
  induction x generalizing gap with
  | nil => exact .nil none gap gap'
  | cons c x ih =>
    cases hc : isBlank c with
    | true =>
      rw [List.dropWhile_cons_of_pos hc]
      exact .blankLeft hc (ih true)
    | false =>
      rw [List.dropWhile_cons_of_neg (by simp [hc])]
      exact .char hc (.inr (hfree c)) (.refl free (some c) false x)

theorem respaced_trim (gap gap' : Bool) (x : List Char) :
    Respaced free none gap gap' x (trim x) :=
  (respaced_trimStart hfree gap gap' x).trans (respaced_trimEnd free none gap' _)

theorem Respaced.trim {gap gap' : Bool} {x y : List Char} (h : Respaced free none gap gap' x y) :
    Respaced free none gap gap' (trim x) (trim y) :=
  (respaced_trim hfree gap gap x).symm.trans (h.trans (respaced_trim hfree gap' gap' y))

end Trimming

/-! ## Tidying -/

/-- Tidying changes the spacing only. -/
theorem respaced_tidyFrom (last : Option Char) (gap : Bool) (cs : List Char) :
    Respaced tidyDrops last gap false cs (tidyFrom last gap cs) := by
  induction cs generalizing last gap with
  | nil => exact .nil last gap false
  | cons c rest ih =>
    rw [tidyFrom]
    cases hc : isBlank c with
    | true => exact .blankLeft hc (ih last true)
    | false =>
      rw [if_neg Bool.false_ne_true]
      dsimp only
      split
      · have hgap : gap = true := by simp_all
        exact .blankRight (by decide) (.char hc (.inl hgap) (ih (some c) false))
      · refine .char hc ?_ (ih (some c) false)
        cases gap with
        | false => exact .inl rfl
        | true =>
          cases last with
          | none => simp [tidyDrops]
          | some d =>
            unfold tidyDrops
            grind

theorem respaced_tidy (cs : List Char) : Alike tidyDrops cs (tidy cs) :=
  (respaced_trim (fun _ => rfl) false false cs).trans (respaced_tidyFrom none false _)

/-! ## Normalizing -/

/-- The rest of a text in canonical spacing, behind the character `c`. -/
def spaceAfter (c : Char) (rest : List Char) : List Char :=
  if c == ',' then ' ' :: spaceFrom (some ' ') false rest else spaceFrom (some c) false rest

theorem spaceFrom_cons {c : Char} (hc : isBlank c = false) (last : Option Char) (gap : Bool)
    (rest : List Char) :
    spaceFrom last gap (c :: rest)
      = (if gap && last.any isWordChar && isWordChar c then [' '] else [])
        ++ c :: spaceAfter c rest := by
  rw [spaceFrom, if_neg (by simp [hc]), spaceAfter]
  cases c == ',' <;> rfl

theorem respaced_dropFinalSpace (free : Option Char → Char → Bool) (last : Option Char) (gap : Bool)
    (cs : List Char) : Respaced free last gap gap cs (dropFinalSpace cs) := by
  unfold dropFinalSpace
  split
  · next hfinal =>
    obtain ⟨ys, rfl⟩ := List.getLast?_eq_some_iff.mp (eq_of_beq hfinal)
    rw [List.dropLast_concat]
    induction ys generalizing last gap with
    | nil => exact .blankLeft (by decide) (.nil last true gap)
    | cons c ys ih =>
      cases hc : isBlank c with
      | true => exact .blankLeft hc (.blankRight hc (ih last true (by simp)))
      | false => exact .char hc (.inl rfl) (ih (some c) false (by simp))
  · exact .refl free last gap cs

/-- Texts that differ in spacing have the same canonical text. -/
theorem Respaced.spaceFrom_eq {last last' : Option Char} {gap gap' : Bool} {x y : List Char}
    (h : Respaced normalizeDrops last gap gap' x y)
    (hlast : last'.any isWordChar = last.any isWordChar) :
    spaceFrom last' gap x = spaceFrom last' gap' y := by
  induction h generalizing last' with
  | nil => rfl
  | blankLeft hb _ ih => rw [spaceFrom, if_pos hb, ih hlast]
  | blankRight hb _ ih => rw [ih hlast, spaceFrom, if_pos hb]
  | @char last gap gap' c x y hc hgap _ ih =>
    have hjoint : (gap && last.any isWordChar && isWordChar c)
        = (gap' && last.any isWordChar && isWordChar c) := by
      rcases hgap with rfl | hfree
      · rfl
      · rw [normalizeDrops, Bool.not_eq_true'] at hfree
        rw [Bool.and_assoc, Bool.and_assoc, hfree, Bool.and_false, Bool.and_false]
    have hafter : spaceAfter c x = spaceAfter c y := by
      unfold spaceAfter
      split
      · next hcomma =>
        obtain rfl := eq_of_beq hcomma
        rw [ih (by decide)]
      · rw [ih rfl]
    rw [spaceFrom_cons hc, spaceFrom_cons hc, hlast, hjoint, hafter]

theorem Respaced.normalize_eq {x y : List Char} (h : Alike normalizeDrops x y) :
    normalize x = normalize y := by
  unfold normalize
  rw [h.spaceFrom_eq rfl]

end SymbolAtlas.Text
