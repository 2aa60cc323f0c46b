import SymbolAtlas.Proofs.Text.Endings
import SymbolAtlas.Proofs.Text.Spacing

/-!
# Tokens and canonical spacing

A declaration is a sequence of tokens, and blanks matter only where they keep two words apart. The
canonical spacing of a text is written from its tokens alone, and has the same tokens. So two texts
have one canonical spacing if and only if they have the same tokens.
-/

set_option autoImplicit false

namespace SymbolAtlas.Text

variable (cs : List Char)

/-- The tokens of a text: its longest runs of word characters, and every other character that is not
a blank by itself. -/
def tokens : List Char → List (List Char)
  | [] => []
  | c :: rest =>
    if isWordChar c then
      (c :: rest.takeWhile isWordChar) :: tokens (rest.dropWhile isWordChar)
    else if isBlank c then tokens rest
    else [c] :: tokens rest
termination_by cs => cs.length
decreasing_by
  · exact Nat.lt_succ_of_le ((List.dropWhile_suffix _).length_le)
  · exact Nat.lt_succ_self _
  · exact Nat.lt_succ_self _

/-- Tokens in canonical spacing, behind a word or not. -/
def spell (afterWord : Bool) : List (List Char) → List Char
  | [] => []
  | token :: rest =>
    (if afterWord && token.all isWordChar then [' '] else []) ++ token
      ++ (if token = [','] then [' '] else []) ++ spell (token.all isWordChar) rest

/-! ## Canonical spacing is written from tokens -/

theorem isWordChar_comma : isWordChar ',' = false := by
  decide +kernel

theorem isWordChar_space : isWordChar ' ' = false := by
  decide +kernel

theorem ne_comma_of_isWordChar {c : Char} (hc : isWordChar c = true) : c ≠ ',' := by
  rintro rfl
  cases hc

theorem spaceAfter_of_isWordChar {c : Char} (hc : isWordChar c = true) (rest : List Char) :
    spaceAfter c rest = spaceFrom (some c) false rest := by
  rw [spaceAfter, if_neg (by simp [ne_comma_of_isWordChar hc])]

theorem spaceFrom_congr {last last' : Option Char} (h : last.any isWordChar = last'.any isWordChar)
    (gap : Bool) (cs : List Char) : spaceFrom last gap cs = spaceFrom last' gap cs := by
  induction cs generalizing gap with
  | nil => rfl
  | cons c rest ih =>
    cases hc : isBlank c with
    | true => rw [spaceFrom, if_pos hc, spaceFrom, if_pos hc, ih]
    | false => rw [spaceFrom_cons hc, spaceFrom_cons hc, h]

theorem spaceFrom_word_append {c : Char} {word : List Char} (hc : isWordChar c = true)
    (hword : ∀ d ∈ word, isWordChar d = true) (rest : List Char) :
    spaceFrom (some c) false (word ++ rest) = word ++ spaceFrom (some c) false rest := by
  induction word with
  | nil => rfl
  | cons d word ih =>
    have hd : isWordChar d = true := hword d List.mem_cons_self
    have hsame : (some d).any isWordChar = (some c).any isWordChar := hd.trans hc.symm
    rw [List.cons_append, spaceFrom_cons (isBlank_of_isWordChar hd), spaceAfter_of_isWordChar hd,
      spaceFrom_congr hsame, ih fun e he => hword e (List.mem_cons_of_mem _ he)]
    rfl

/-- The canonical text is spelled from the tokens alone. -/
theorem spaceFrom_eq_spell (last : Option Char) (gap : Bool) {cs : List Char}
    (h : gap = true ∨ last.any isWordChar = false ∨ cs.head?.any isWordChar = false) :
    spaceFrom last gap cs = spell (last.any isWordChar) (tokens cs) := by
  fun_induction tokens cs generalizing last gap with
  | case1 => rfl
  | case2 c rest hc ih =>
    have hjoint : (gap && last.any isWordChar && isWordChar c) = last.any isWordChar := by
      rcases h with rfl | hlast | hhead
      · rw [hc, Bool.true_and, Bool.and_true]
      · rw [hlast, Bool.and_false, Bool.false_and]
      · exact absurd (hc.symm.trans hhead) Bool.noConfusion
    have hword : ∀ d ∈ rest.takeWhile isWordChar, isWordChar d = true :=
      List.all_eq_true.mp List.all_takeWhile
    have htoken : (c :: rest.takeWhile isWordChar).all isWordChar = true := by
      rw [List.all_cons, hc, Bool.true_and, List.all_takeWhile]
    have hrest : spaceFrom (some c) false rest
        = rest.takeWhile isWordChar ++ spell true (tokens (rest.dropWhile isWordChar)) := by
      have hnext := ih (some c) false (.inr (.inr (head?_any_dropWhile isWordChar rest)))
      rw [Option.any_some, hc] at hnext
      rw [← hnext, ← spaceFrom_word_append hc hword, List.takeWhile_append_dropWhile]
    rw [spaceFrom_cons (isBlank_of_isWordChar hc), hjoint, spaceAfter_of_isWordChar hc, hrest, spell,
      htoken]
    simp [ne_comma_of_isWordChar hc]
  | case3 c rest hc hblank ih =>
    rw [spaceFrom, if_pos hblank, ih last true (.inl rfl)]
  | case4 c rest hc hblank ih =>
    have hsymbol : isWordChar c = false := by simpa using hc
    have htoken : [c].all isWordChar = false := by simpa using hsymbol
    rw [spaceFrom_cons (by simpa using hblank), hsymbol, spell, htoken, spaceAfter]
    by_cases hcomma : c = ','
    · subst hcomma
      have hnext := ih (some ' ') false (.inr (.inl isWordChar_space))
      rw [Option.any_some, isWordChar_space] at hnext
      simp [hnext]
    · have hnext := ih (some c) false (.inr (.inl hsymbol))
      rw [Option.any_some, hsymbol] at hnext
      simp [hnext, hcomma]

theorem normalize_eq_spell : normalize cs = dropFinalSpace (spell false (tokens cs)) := by
  rw [normalize, spaceFrom_eq_spell none false (.inr (.inl rfl))]
  rfl

/-! ## Canonical spacing keeps tokens -/

section Cons

variable {c : Char}

theorem tokens_cons_of_isBlank (hc : isBlank c = true) (x : List Char) :
    tokens (c :: x) = tokens x := by
  have hword : ¬ isWordChar c = true := fun hword =>
    absurd (isBlank_of_isWordChar hword) (by simp [hc])
  rw [tokens, if_neg hword, if_pos hc]

theorem tokens_cons_of_isWordChar (hc : isWordChar c = true) (x : List Char) :
    tokens (c :: x)
      = if x.head?.any isWordChar then consFirst c (tokens x) else [c] :: tokens x := by
  rw [tokens, if_pos hc]
  cases x with
  | nil => rfl
  | cons d x =>
    cases hd : isWordChar d with
    | true => simp [tokens, hd, consFirst]
    | false => simp [hd]

theorem tokens_cons_of_symbol (hword : isWordChar c = false) (hblank : isBlank c = false)
    (x : List Char) : tokens (c :: x) = [c] :: tokens x := by
  rw [tokens, if_neg (by simp [hword]), if_neg (by simp [hblank])]

end Cons

namespace Respaced

variable {last : Option Char} {gap gap' : Bool} {x y : List Char} {c : Char}

theorem head?_any_eq (hc : isWordChar c = true)
    (h : Respaced normalizeDrops (some c) false false x y) :
    x.head?.any isWordChar = y.head?.any isWordChar := by
  have himp {x y : List Char} (h : Respaced normalizeDrops (some c) false false x y)
      (hx : x.head?.any isWordChar = true) : y.head?.any isWordChar = true := by
    cases hd : x.head? with
    | none =>
      rw [hd] at hx
      cases hx
    | some d =>
      have hword : isWordChar d = true := by rwa [hd] at hx
      rw [h.head?_eq_some (isBlank_of_isWordChar hword) (by simp [normalizeDrops, hc, hword]) hd]
      exact hword
  exact Bool.eq_iff_iff.mpr ⟨himp h, himp h.symm⟩

theorem tokens_eq (h : Respaced normalizeDrops last gap gap' x y) : tokens x = tokens y := by
  induction h with
  | nil => rfl
  | blankLeft hb _ ih => rw [tokens_cons_of_isBlank hb, ih]
  | blankRight hb _ ih => rw [tokens_cons_of_isBlank hb, ih]
  | @char last gap gap' c x y hc hgap h ih =>
    cases hword : isWordChar c with
    | true =>
      rw [tokens_cons_of_isWordChar hword, tokens_cons_of_isWordChar hword, h.head?_any_eq hword, ih]
    | false => rw [tokens_cons_of_symbol hword hc, tokens_cons_of_symbol hword hc, ih]

end Respaced

/-- Canonical spacing differs from the text in blanks that normalization drops. `last'` is what was
written last, which is a blank where `last` is a comma. -/
theorem respaced_spaceFrom {last last' : Option Char} {gap' : Bool}
    (hlast : last'.any isWordChar = last.any isWordChar)
    (hgap' : gap' = false ∨ last.any isWordChar = false) (gap : Bool) (cs : List Char) :
    Respaced normalizeDrops last gap gap' cs (spaceFrom last' gap cs) := by
  induction cs generalizing last last' gap gap' with
  | nil => exact .nil last gap gap'
  | cons c rest ih =>
    cases hc : isBlank c with
    | true =>
      rw [spaceFrom, if_pos hc]
      exact .blankLeft hc (ih hlast hgap' true)
    | false =>
      have hrest : Respaced normalizeDrops (some c) false false rest (spaceAfter c rest) := by
        unfold spaceAfter
        split
        · next hcomma =>
          obtain rfl := eq_of_beq hcomma
          have hsame : (some ' ').any isWordChar = (some ',').any isWordChar :=
            isWordChar_space.trans isWordChar_comma.symm
          exact .blankRight (by decide) (ih hsame (.inr isWordChar_comma) false)
        · exact ih rfl (.inl rfl) false
      rw [spaceFrom_cons hc, hlast]
      cases hjoint : gap && last.any isWordChar && isWordChar c with
      | true =>
        have hgap : gap = true := by simp_all
        exact .blankRight (by decide) (.char hc (.inl hgap) hrest)
      | false =>
        refine .char hc ?_ hrest
        rcases hgap' with rfl | hword
        · cases gap with
          | false => exact .inl rfl
          | true => exact .inr (by rw [normalizeDrops, ← Bool.true_and (last.any _), hjoint]; rfl)
        · exact .inr (by rw [normalizeDrops, hword]; rfl)

theorem respaced_normalize : Alike normalizeDrops cs (normalize cs) :=
  (respaced_spaceFrom rfl (.inl rfl) false cs).trans (respaced_dropFinalSpace _ none false _)

theorem tokens_normalize : tokens (normalize cs) = tokens cs :=
  (respaced_normalize cs).tokens_eq.symm

theorem tokens_trimEnd (x : List Char) : tokens (trimEnd x) = tokens x :=
  (respaced_trimEnd normalizeDrops none false x).tokens_eq.symm

theorem tokens_trim (x : List Char) : tokens (trim x) = tokens x :=
  (respaced_trim (fun _ => rfl) false false x : Respaced normalizeDrops _ _ _ _ _).tokens_eq.symm

theorem respaced_of_tokens_eq {x y : List Char} (h : tokens x = tokens y) :
    Alike normalizeDrops x y := by
  have hsame : normalize x = normalize y := by rw [normalize_eq_spell, h, normalize_eq_spell]
  have hy := respaced_normalize y
  rw [← hsame] at hy
  exact (respaced_normalize x).trans hy.symm

theorem tokens_append {x y : List Char}
    (h : x.getLast?.any isWordChar = false ∨ y.head?.any isWordChar = false) :
    tokens (x ++ y) = tokens x ++ tokens y := by
  induction x with
  | nil => simp [tokens]
  | cons c x ih =>
    have hrest : tokens (x ++ y) = tokens x ++ tokens y := by
      cases x with
      | nil => simp [tokens]
      | cons d x => exact ih h
    rw [List.cons_append]
    cases hblank : isBlank c with
    | true => rw [tokens_cons_of_isBlank hblank, tokens_cons_of_isBlank hblank, hrest]
    | false =>
      cases hword : isWordChar c with
      | false =>
        rw [tokens_cons_of_symbol hword hblank, tokens_cons_of_symbol hword hblank, hrest,
          List.cons_append]
      | true =>
        rw [tokens_cons_of_isWordChar hword, tokens_cons_of_isWordChar hword, hrest]
        cases x with
        | nil =>
          have hy : y.head?.any isWordChar = false := h.resolve_left (by simp [hword])
          simp [hy, tokens]
        | cons d x =>
          cases hd : isWordChar d with
          | false => simp [hd]
          | true => simp [hd, tokens, consFirst]

theorem tokens_append_cons {c : Char} (hc : isWordChar c = false) (x y : List Char) :
    tokens (x ++ c :: y) = tokens x ++ tokens (c :: y) :=
  tokens_append (.inr hc)

/-- Canonical spacing is a canonical form of the tokens of a text: it is the same for two texts if
and only if these have the same tokens, which is to say that they differ in blanks that keep no words
apart. It has these tokens itself, and it is left as it is. -/
theorem normalized_eq_iff_tokens_eq (x y : String) :
    (normalized x = normalized y ↔ tokens x.toList = tokens y.toList) ∧
      (normalized x = normalized y ↔ Respaced normalizeDrops none false false x.toList y.toList) ∧
      tokens (normalized x).toList = tokens x.toList ∧
      normalized (normalized x) = normalized x := by
  have hkeeps (s : String) : tokens (normalized s).toList = tokens s.toList := by
    rw [normalized, String.toList_ofList, tokens_normalize]
  have hsame : normalized x = normalized y ↔ tokens x.toList = tokens y.toList := by
    constructor
    · intro h
      rw [← hkeeps x, h, hkeeps y]
    · intro h
      unfold normalized
      rw [normalize_eq_spell, h, normalize_eq_spell]
  refine ⟨hsame, hsame.trans ⟨respaced_of_tokens_eq, fun h => h.tokens_eq⟩, hkeeps x, ?_⟩
  exact normalized_normalized x

end SymbolAtlas.Text
