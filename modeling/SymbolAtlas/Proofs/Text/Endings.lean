import SymbolAtlas.Proofs.Text.Scanning

/-!
# How texts end

The blanks at the ends of a text and the word that it ends in. Texts that differ in blanks which are
dropped in canonical spacing end in the same word, as blanks between the characters of words are never
free.
-/

set_option autoImplicit false

namespace SymbolAtlas.Text

variable {c : Char} {x : List Char} {last : Option Char}

/-! ## Word characters -/

/-- The code points of the blanks above ASCII. -/
def wideBlanks : List Nat :=
  [0x85, 0xA0, 0x1680, 0x2000, 0x2001, 0x2002, 0x2003, 0x2004, 0x2005, 0x2006, 0x2007, 0x2008, 0x2009,
    0x200A, 0x2028, 0x2029, 0x202F, 0x205F, 0x3000]

theorem isBlank_of_isWordChar (h : isWordChar c = true) : isBlank c = false := by
  by_contra hb
  have hwide : ∀ n ∈ wideBlanks, alphanumericRanges.has n = false := by decide +kernel
  have hcode : c.toNat < 128 ∨ c.toNat ∈ wideBlanks := by
    unfold isBlank at hb
    simp only [wideBlanks, List.mem_cons, List.not_mem_nil]
    simp at hb
    omega
  have hplain : c.isAlphanum = false ∧ c ≠ '_' := by
    unfold isBlank at hb
    unfold Char.isAlphanum Char.isAlpha Char.isUpper Char.isLower Char.isDigit
    simp [UInt32.le_iff_toNat_le, ← Char.toNat_val, Char.ext_iff, UInt32.ext_iff] at hb ⊢
    omega
  have hrange : (decide (128 ≤ c.toNat) && alphanumericRanges.has c.toNat) = false := by
    rcases hcode with hlt | hmem
    · simp [Nat.not_le.mpr hlt]
    · rw [hwide _ hmem, Bool.and_false]
  unfold isWordChar isAlphanumeric at h
  simp [hplain.1, hplain.2, hrange] at h

theorem head?_any_dropWhile (p : Char → Bool) (cs : List Char) :
    (cs.dropWhile p).head?.any p = false := by
  have hnot := List.head?_dropWhile_not p cs
  cases hhead : (cs.dropWhile p).head? with
  | none => rfl
  | some d =>
    rw [hhead] at hnot
    simpa using hnot

/-! ## Blanks at the ends -/

theorem getLast?_cons_or (c : Char) (x : List Char) (last : Option Char) :
    (c :: x).getLast?.or last = x.getLast?.or (some c) := by
  rw [List.getLast?_cons]
  cases x.getLast? <;> rfl

theorem isBlank_of_mem_withoutBlanks (h : c ∈ withoutBlanks x) : isBlank c = false := by
  simpa using (List.mem_filter.mp h).2

theorem getLast?_trimEnd (x : List Char) : (trimEnd x).getLast? = (withoutBlanks x).getLast? := by
  induction x with
  | nil => rfl
  | cons c x ih =>
    rw [trimEnd_cons]
    unfold withoutBlanks at ih ⊢
    cases hc : isBlank c with
    | true =>
      rw [List.filter_cons_of_neg (by simp [hc]), ← ih]
      by_cases hx : trimEnd x = []
      · rw [if_pos ⟨hx, rfl⟩, hx]
      · rw [if_neg fun h => hx h.1, List.getLast?_cons_of_ne_nil hx]
    | false =>
      rw [if_neg (by simp), List.filter_cons_of_pos (by simp [hc]), List.getLast?_cons, ih,
        List.getLast?_cons]

theorem trimEnd_eq_nil_iff : trimEnd x = [] ↔ withoutBlanks x = [] := by
  rw [← List.getLast?_eq_none_iff, getLast?_trimEnd, List.getLast?_eq_none_iff]

theorem withoutBlanks_trimStart (x : List Char) : withoutBlanks (trimStart x) = withoutBlanks x := by
  have hstart : ∀ c, normalizeDrops none c = true := fun _ => rfl
  exact (respaced_trimStart hstart false false x).withoutBlanks_eq.symm

theorem withoutBlanks_trimEnd (x : List Char) : withoutBlanks (trimEnd x) = withoutBlanks x :=
  (respaced_trimEnd normalizeDrops none false x).withoutBlanks_eq.symm

theorem getLast?_trim (x : List Char) : (trim x).getLast? = (withoutBlanks x).getLast? := by
  rw [trim, getLast?_trimEnd, withoutBlanks_trimStart]

theorem trim_eq_nil_iff : trim x = [] ↔ withoutBlanks x = [] := by
  rw [trim, trimEnd_eq_nil_iff, withoutBlanks_trimStart]

/-- The text does not end in a blank. -/
def EndsSolid (x : List Char) : Prop :=
  ∀ c ∈ x.getLast?, isBlank c = false

theorem endsSolid_trimEnd (x : List Char) : EndsSolid (trimEnd x) := by
  intro c hc
  rw [getLast?_trimEnd] at hc
  exact isBlank_of_mem_withoutBlanks (List.mem_of_getLast? hc)

theorem EndsSolid.getLast?_eq (h : EndsSolid x) : x.getLast? = (withoutBlanks x).getLast? := by
  rcases List.eq_nil_or_concat x with rfl | ⟨x, c, rfl⟩
  · rfl
  · have hc : isBlank c = false := h c (by simp)
    simp [withoutBlanks, hc]

theorem EndsSolid.of_cons (h : EndsSolid (c :: x)) : EndsSolid x := by
  intro d hd
  refine h d ?_
  rw [List.getLast?_cons, Option.mem_def.mp hd]
  rfl

namespace Respaced

variable {free : Option Char → Char → Bool} {last : Option Char} {gap gap' : Bool}
variable {x y : List Char} {c : Char}

theorem free_of_gap (hc : isBlank c = false) (h : Respaced free last false true (c :: x) y) :
    free last c = true := by
  induction y with
  | nil =>
    cases h with
    | blankLeft hb => exact absurd (hc.symm.trans hb) Bool.false_ne_true
  | cons d y ih =>
    cases h with
    | blankLeft hb => exact absurd (hc.symm.trans hb) Bool.false_ne_true
    | blankRight hb h => exact ih h
    | char _ hgap => exact hgap.resolve_left Bool.false_ne_true

theorem head?_eq_some (hc : isBlank c = false) (hfree : free last c = false)
    (h : Respaced free last false false x y) (hx : x.head? = some c) : y.head? = some c := by
  cases x with
  | nil => cases hx
  | cons d x =>
    cases hx
    cases h with
    | blankLeft hb => exact absurd (hc.symm.trans hb) Bool.false_ne_true
    | blankRight hb h =>
      rw [h.free_of_gap hc] at hfree
      cases hfree
    | char => rfl

theorem eq_nil_of_endsSolid (h : Respaced free last gap gap' [] y) (hy : EndsSolid y) : y = [] := by
  have hblank := h.withoutBlanks_eq
  rw [← List.getLast?_eq_none_iff, hy.getLast?_eq, ← hblank]
  rfl

/-! ## The word at the end -/

theorem eq_of_wordChars {w : List Char} (hc : isWordChar c = true) (hw : ∀ d ∈ w, isWordChar d = true)
    (hy : EndsSolid y) (h : Respaced normalizeDrops (some c) false false w y) : y = w := by
  induction w generalizing c y with
  | nil => exact h.eq_nil_of_endsSolid hy
  | cons d w ih =>
    have hd := hw d List.mem_cons_self
    have hsolid := isBlank_of_isWordChar hd
    cases h with
    | blankLeft hb => exact absurd (hsolid.symm.trans hb) Bool.false_ne_true
    | blankRight _ h =>
      have hfree := h.free_of_gap hsolid
      simp [normalizeDrops, hc, hd] at hfree
    | char _ _ h => rw [ih hd (fun e he => hw e (List.mem_cons_of_mem _ he)) hy.of_cons h]

/-- The word at the end of one text is the word at the end of the other. What stands before it ends
in no word character, `last` being the character before a text that is empty. -/
theorem exists_eq_append_word {u w : List Char} (hw : ∀ d ∈ w, isWordChar d = true) (hne : w ≠ [])
    (h : Respaced normalizeDrops last gap gap' x y) (hx : x = u ++ w) (hy : EndsSolid y)
    (hu : (u.getLast?.or (if gap then none else last)).any isWordChar = false) :
    ∃ u', y = u' ++ w ∧ Respaced normalizeDrops last gap gap' u u' ∧
      (u'.getLast?.or (if gap' then none else last)).any isWordChar = false := by
  have hblank {b : Char} (hb : isBlank b = true) : isWordChar b = false := by
    by_contra hword
    rw [isBlank_of_isWordChar (by simpa using hword)] at hb
    cases hb
  induction h generalizing u with
  | nil => exact absurd (List.append_eq_nil_iff.mp hx.symm).2 hne
  | @blankLeft last gap gap' b x y hb h ih =>
    cases u with
    | nil =>
      have hword := hw b (by rw [← List.nil_append w, ← hx]; exact List.mem_cons_self)
      rw [hblank hb] at hword
      cases hword
    | cons c u =>
      obtain ⟨rfl, rfl⟩ := List.cons.inj hx
      rw [getLast?_cons_or] at hu
      obtain ⟨u', rfl, hu', hlast⟩ := ih rfl hy (by cases hl : u.getLast? <;> simp_all)
      exact ⟨u', rfl, .blankLeft hb hu', hlast⟩
  | @blankRight last gap gap' b x y hb h ih =>
    obtain ⟨u', rfl, hu', hlast⟩ := ih hx hy.of_cons hu
    refine ⟨b :: u', rfl, .blankRight hb hu', ?_⟩
    rw [getLast?_cons_or]
    cases hl : u'.getLast? with
    | none => exact hblank hb
    | some d => simpa [hl] using hlast
  | @char last gap gap' c x y hc hgap h ih =>
    cases u with
    | nil =>
      -- The word begins here, and goes on to the end.
      obtain rfl : c :: x = w := hx
      have hword := hw c List.mem_cons_self
      have heq := h.eq_of_wordChars hword (fun d hd => hw d (List.mem_cons_of_mem _ hd)) hy.of_cons
      refine ⟨[], by rw [heq]; rfl, .nil last gap gap', ?_⟩
      rcases hgap with rfl | hfree
      · exact hu
      · have hlast : last.any isWordChar = false := by simpa [normalizeDrops, hword] using hfree
        cases gap' <;> simp [hlast]
    | cons d u =>
      obtain ⟨rfl, rfl⟩ := List.cons.inj hx
      rw [getLast?_cons_or] at hu
      obtain ⟨u', rfl, hu', hlast⟩ := ih rfl hy.of_cons hu
      exact ⟨c :: u', rfl, .char hc hgap hu', by rw [getLast?_cons_or]; exact hlast⟩

end Respaced

theorem normalizeDrops_of_tidyDrops (h : tidyDrops last c = true) :
    normalizeDrops last c = true := by
  have hall : ([',', ')', '>', ']', '(', '<', '['].all fun d => !isWordChar d) = true := by
    decide +kernel
  have hsymbols : ∀ d ∈ [',', ')', '>', ']', '(', '<', '['], isWordChar d = false := fun d hd => by
    simpa using List.all_eq_true.mp hall d hd
  unfold tidyDrops at h
  unfold normalizeDrops
  cases last with
  | none => rfl
  | some d =>
    simp only [Option.all_some, Bool.or_eq_true, beq_iff_eq, or_assoc] at h
    rcases h with rfl | rfl | rfl | rfl | rfl | rfl | rfl
    all_goals simp [hsymbols]

theorem Respaced.trimEnd {free : Option Char → Char → Bool} {gap gap' : Bool} {y : List Char}
    (h : Respaced free last gap gap' x y) : Respaced free last gap gap' (trimEnd x) (trimEnd y) :=
  ((respaced_trimEnd free last gap x).symm.trans h).trans (respaced_trimEnd free last gap' y)

theorem Respaced.normalize_eq_of_start {gap gap' : Bool} {y : List Char}
    (h : Respaced normalizeDrops last gap gap' x y) : normalize x = normalize y :=
  (h.toStart (fun _ => rfl) false false).normalize_eq

theorem isBlank_of_mem_head?_trim (hc : c ∈ (trim x).head?) : isBlank c = false := by
  obtain ⟨rest, hrest⟩ := isPrefix_trimEnd (trimStart x)
  have hhead : (trimStart x).head? = some c := by
    rw [← hrest, List.head?_append, ← trim, Option.mem_def.mp hc]
    rfl
  have hnot := List.head?_dropWhile_not isBlank x
  rw [← trimStart, hhead] at hnot
  simpa using hnot

theorem Respaced.eq_of_word {w : List Char} (hw : ∀ d ∈ w, isWordChar d = true) (hne : w ≠ [])
    (h : Alike normalizeDrops w (Text.trim x)) : Text.trim x = w := by
  obtain ⟨u, hu, hblanks, -⟩ := h.exists_eq_append_word hw hne (List.nil_append w).symm
    (endsSolid_trimEnd _) rfl
  cases u with
  | nil => exact hu
  | cons b u =>
    have hb : isBlank b = false := isBlank_of_mem_head?_trim (by rw [hu]; rfl)
    cases hblanks with
    | blankRight hblank => exact absurd (hb.symm.trans hblank) Bool.false_ne_true

end SymbolAtlas.Text
