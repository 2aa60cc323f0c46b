import Mathlib.Data.List.Forall2
import Mathlib.Data.Option.Basic
import SymbolAtlas.Proofs.Text.Respacing
import SymbolAtlas.Text.Nesting
import SymbolAtlas.Text.Search

/-!
# Reading a text up to a character

Cutting a text at a character, at the bracket that closes it or at the commas outside of brackets is
all one kind of reading: character by character, with a state, until one is found to stop at. Blanks
change nothing for such a reader, so texts that differ in their blanks are cut alike.
-/

set_option autoImplicit false

namespace SymbolAtlas.Text

variable {before after part rest : List Char}

variable {sep : Char} {level : Int} {cs : List Char} {b : Char}

/-- What stands before and after the first character at which a reader stops. -/
def scan {σ : Type} (step : σ → Char → Option σ) (s : σ) : List Char → Option (List Char × List Char)
  | [] => none
  | c :: rest =>
    match step s c with
    | none => some ([], rest)
    | some s => (scan step s rest).map fun (before, after) => (c :: before, after)

/-- Stops at one character. -/
def stopAt (sep : Char) (_ : Unit) (c : Char) : Option Unit :=
  if c == sep then none else some ()

/-- Stops at the bracket that closes the innermost `level + 1` open ones. -/
def closeStep (level : Nat) (c : Char) : Option Nat :=
  if isOpening c then some (level + 1)
  else if isClosing c then if level = 0 then none else some (level - 1)
  else some level

/-- Stops at a separator outside of all brackets. -/
def splitStep (sep : Char) (level : Int) (c : Char) : Option Int :=
  if nestingStep c == 0 && c == sep && level == 0 then none else some (level + nestingStep c)

section Scan

variable {σ : Type} {step : σ → Char → Option σ} {s s' : σ} {c : Char} {x : List Char}

theorem scan_cons_of_none (h : step s c = none) (rest : List Char) :
    scan step s (c :: rest) = some ([], rest) := by
  rw [scan, h]

theorem scan_cons_of_some (h : step s c = some s') (rest : List Char) :
    scan step s (c :: rest)
      = (scan step s' rest).map fun cut => (c :: cut.1, cut.2) := by
  rw [scan, h]

/-- The state of a reader behind a text, if it does not stop inside of it. -/
def stateAfter (step : σ → Char → Option σ) (s : σ) : List Char → Option σ
  | [] => some s
  | c :: rest => (step s c).bind fun s => stateAfter step s rest

theorem stateAfter_append (x y : List Char) :
    stateAfter step s (x ++ y) = (stateAfter step s x).bind fun s => stateAfter step s y := by
  induction x generalizing s with
  | nil => rfl
  | cons c x ih =>
    rw [List.cons_append, stateAfter, stateAfter]
    cases step s c with
    | none => rfl
    | some s => exact ih

theorem scan_append_of_stateAfter (h : stateAfter step s x = some s') (y : List Char) :
    scan step s (x ++ y) = (scan step s' y).map fun cut => (x ++ cut.1, cut.2) := by
  induction x generalizing s with
  | nil =>
    cases h
    exact Option.map_id'.symm
  | cons c x ih =>
    obtain ⟨s₁, hstep, hrest⟩ := Option.bind_eq_some_iff.mp h
    rw [List.cons_append, scan_cons_of_some hstep, ih hrest, Option.map_map]
    rfl

theorem scan_eq_none_of_stateAfter (h : stateAfter step s x = some s') : scan step s x = none := by
  have hscan := scan_append_of_stateAfter h []
  rwa [List.append_nil] at hscan

theorem exists_stateAfter_of_scan_eq_none (h : scan step s x = none) :
    ∃ s', stateAfter step s x = some s' := by
  induction x generalizing s with
  | nil => exact ⟨s, rfl⟩
  | cons c x ih =>
    cases hstep : step s c with
    | none =>
      rw [scan_cons_of_none hstep] at h
      cases h
    | some s₁ =>
      rw [scan_cons_of_some hstep, Option.map_eq_none_iff] at h
      obtain ⟨s', hs'⟩ := ih h
      exact ⟨s', by rw [stateAfter, hstep, Option.bind_some, hs']⟩

theorem exists_stateAfter_of_scan {cs : List Char} (h : scan step s cs = some (before, after)) :
    ∃ s' c, stateAfter step s before = some s' ∧ step s' c = none ∧ cs = before ++ c :: after := by
  induction cs generalizing s before with
  | nil => cases h
  | cons c rest ih =>
    cases hstep : step s c with
    | none =>
      rw [scan_cons_of_none hstep] at h
      cases h
      exact ⟨s, c, rfl, hstep, rfl⟩
    | some s₁ =>
      rw [scan_cons_of_some hstep] at h
      obtain ⟨⟨before', after'⟩, hcut, heq⟩ := Option.map_eq_some_iff.mp h
      cases heq
      obtain ⟨s', d, hs', hd, rfl⟩ := ih hcut
      exact ⟨s', d, by rw [stateAfter, hstep, Option.bind_some, hs'], hd, rfl⟩

theorem eq_append_of_scan {cs : List Char} (h : scan step s cs = some (before, after)) :
    ∃ c, (∃ s, step s c = none) ∧ cs = before ++ c :: after := by
  obtain ⟨s', c, -, hstop, heq⟩ := exists_stateAfter_of_scan h
  exact ⟨c, ⟨s', hstop⟩, heq⟩

theorem length_lt_of_scan {cs : List Char} (h : scan step s cs = some (before, after)) :
    after.length < cs.length := by
  obtain ⟨c, -, rfl⟩ := eq_append_of_scan h
  rw [List.length_append, List.length_cons]
  omega

end Scan

theorem eq_of_stopAt {c : Char} {s : Unit} (h : stopAt sep s c = none) : c = sep := by
  by_contra hc
  simp [stopAt, hc] at h

theorem cut_eq_scan (sep : Char) (cs : List Char) : cut [sep] cs = scan (stopAt sep) () cs := by
  induction cs with
  | nil => rfl
  | cons c rest ih =>
    rw [cut, ih]
    by_cases hc : c = sep
    · rw [scan_cons_of_none (by simp [stopAt, hc])]
      simp [hc]
    · have hgo : stopAt sep () c = some () := by simp [stopAt, hc]
      rw [scan_cons_of_some hgo]
      simp [Ne.symm hc]

theorem closeFrom_eq_scan (level : Nat) (cs : List Char) :
    closeFrom level cs = scan closeStep level cs := by
  induction cs generalizing level with
  | nil => rfl
  | cons c rest ih =>
    rw [closeFrom]
    rw [← closeStep]
    cases hstep : closeStep level c with
    | none => rw [scan_cons_of_none hstep]
    | some level =>
      rw [scan_cons_of_some hstep, ← ih]

theorem splitFrom_of_scan_eq_none (h : scan (splitStep sep) level cs = none) :
    splitFrom sep level cs = [cs] := by
  induction cs generalizing level with
  | nil => rfl
  | cons c rest ih =>
    by_cases hstop : (nestingStep c == 0 && c == sep && level == 0) = true
    · rw [scan_cons_of_none (if_pos hstop)] at h
      cases h
    · rw [scan_cons_of_some (if_neg hstop), Option.map_eq_none_iff] at h
      rw [splitFrom, if_neg hstop, ih h, consFirst]

/-- The first part ends where the scan for a separator stops. -/
theorem splitFrom_of_scan_eq_some (h : scan (splitStep sep) level cs = some (part, rest)) :
    splitFrom sep level cs = part :: splitFrom sep 0 rest := by
  induction cs generalizing level part with
  | nil => cases h
  | cons c cs ih =>
    by_cases hstop : (nestingStep c == 0 && c == sep && level == 0) = true
    · have hlevel : level = 0 := by simp_all
      rw [scan_cons_of_none (if_pos hstop)] at h
      cases h
      rw [splitFrom, if_pos hstop, hlevel]
    · rw [scan_cons_of_some (if_neg hstop)] at h
      obtain ⟨⟨part', rest'⟩, hcut, heq⟩ := Option.map_eq_some_iff.mp h
      cases heq
      rw [splitFrom, if_neg hstop, ih hcut, consFirst]

/-! ## Blanks -/

theorem isOpening_of_isBlank (hb : isBlank b = true) : isOpening b = false := by
  unfold isBlank at hb
  unfold isOpening
  simp [Char.ext_iff, UInt32.ext_iff, ← Char.toNat_val] at hb ⊢
  omega

theorem isClosing_of_isBlank (hb : isBlank b = true) : isClosing b = false := by
  unfold isBlank at hb
  unfold isClosing
  simp [Char.ext_iff, UInt32.ext_iff, ← Char.toNat_val] at hb ⊢
  omega

theorem nestingStep_of_isBlank (hb : isBlank b = true) : nestingStep b = 0 := by
  rw [nestingStep, isOpening_of_isBlank hb, isClosing_of_isBlank hb]
  rfl

/-- A reader that passes over blanks. -/
def PassesBlanks {σ : Type} (step : σ → Char → Option σ) : Prop :=
  ∀ s b, isBlank b = true → step s b = some s

theorem passesBlanks_stopAt (hsep : isBlank sep = false) : PassesBlanks (stopAt sep) := by
  intro s b hb
  have hne : b ≠ sep := by
    rintro rfl
    rw [hb] at hsep
    cases hsep
  simp [stopAt, hne]

theorem passesBlanks_closeStep : PassesBlanks closeStep := by
  intro level b hb
  rw [closeStep, isOpening_of_isBlank hb, isClosing_of_isBlank hb]
  rfl

theorem passesBlanks_splitStep (hsep : isBlank sep = false) : PassesBlanks (splitStep sep) := by
  intro level b hb
  have hne : b ≠ sep := by
    rintro rfl
    rw [hb] at hsep
    cases hsep
  simp [splitStep, hne, nestingStep_of_isBlank hb]

/-- Two texts cut at the same character. -/
structure CutAlike (free : Option Char → Char → Bool) (last : Option Char) (gap gap' : Bool)
    (stops : Char → Prop) (cut cut' : List Char × List Char) : Prop where
  before : Respaced free last gap gap' cut.1 cut'.1
  after : ∃ c, stops c ∧ Respaced free (some c) false false cut.2 cut'.2

/-- Two texts that are cut at the same character, or not at all. -/
def CutsAlike (free : Option Char → Char → Bool) (last : Option Char) (gap gap' : Bool)
    (stops : Char → Prop) : (cut? cut?' : Option (List Char × List Char)) → Prop :=
  Option.Rel (CutAlike free last gap gap' stops)

namespace CutsAlike

variable {free : Option Char → Char → Bool} {last : Option Char} {gap gap' : Bool}
variable {stops : Char → Prop} {cut? cut?' : Option (List Char × List Char)}

theorem blankLeft (hb : isBlank b = true) (h : CutsAlike free last true gap' stops cut? cut?') :
    CutsAlike free last gap gap' stops (cut?.map fun cut => (b :: cut.1, cut.2)) cut?' := by
  cases h with
  | none => exact .none
  | some hcut => exact .some ⟨.blankLeft hb hcut.before, hcut.after⟩

theorem blankRight (hb : isBlank b = true) (h : CutsAlike free last gap true stops cut? cut?') :
    CutsAlike free last gap gap' stops cut? (cut?'.map fun cut => (b :: cut.1, cut.2)) := by
  cases h with
  | none => exact .none
  | some hcut => exact .some ⟨.blankRight hb hcut.before, hcut.after⟩

theorem char {c : Char} (hc : isBlank c = false) (hgap : gap = gap' ∨ free last c = true)
    (h : CutsAlike free (some c) false false stops cut? cut?') :
    CutsAlike free last gap gap' stops (cut?.map fun cut => (c :: cut.1, cut.2))
      (cut?'.map fun cut => (c :: cut.1, cut.2)) := by
  cases h with
  | none => exact .none
  | some hcut => exact .some ⟨.char hc hgap hcut.before, hcut.after⟩

theorem none_or_some (h : CutsAlike free last gap gap' stops cut? cut?') :
    cut? = none ∧ cut?' = none ∨
      ∃ cut cut', cut? = some cut ∧ cut?' = some cut' ∧
        CutAlike free last gap gap' stops cut cut' := by
  cases h with
  | none => exact .inl ⟨rfl, rfl⟩
  | some hcut => exact .inr ⟨_, _, rfl, rfl, hcut⟩

end CutsAlike

namespace Respaced

variable {free : Option Char → Char → Bool} {last : Option Char} {gap gap' : Bool}
variable {x y : List Char}

/-- A scan that passes over blanks cuts texts that differ in spacing at the same place. -/
theorem scan {σ : Type} {step : σ → Char → Option σ} (hstep : PassesBlanks step)
    (h : Respaced free last gap gap' x y) (s : σ) :
    CutsAlike free last gap gap' (fun c => ∃ s, step s c = none) (Text.scan step s x)
      (Text.scan step s y) := by
  induction h generalizing s with
  | nil => exact .none
  | blankLeft hb _ ih =>
    rw [scan_cons_of_some (hstep s _ hb)]
    exact (ih s).blankLeft hb
  | blankRight hb _ ih =>
    rw [scan_cons_of_some (hstep s _ hb)]
    exact (ih s).blankRight hb
  | @char last gap gap' c x y hc hgap h ih =>
    cases hs : step s c with
    | none =>
      rw [scan_cons_of_none hs, scan_cons_of_none hs]
      exact .some ⟨.nil last gap gap', c, ⟨s, hs⟩, h⟩
    | some s' =>
      rw [scan_cons_of_some hs, scan_cons_of_some hs]
      exact (ih s').char hc hgap

theorem stateAfter_eq {σ : Type} {step : σ → Char → Option σ} (hstep : PassesBlanks step)
    (h : Respaced free last gap gap' x y) (s : σ) : stateAfter step s x = stateAfter step s y := by
  induction h generalizing s with
  | nil => rfl
  | blankLeft hb _ ih =>
    rw [stateAfter, hstep s _ hb]
    exact ih s
  | blankRight hb _ ih =>
    rw [stateAfter, hstep s _ hb]
    exact ih s
  | char hc _ _ ih =>
    exact Option.bind_congr fun s₁ _ => ih s₁

theorem toStart (hfree : ∀ c, free none c = true) (h : Respaced free last gap gap' x y)
    (gap₁ gap₂ : Bool) : Respaced free none gap₁ gap₂ x y := by
  induction h generalizing gap₁ gap₂ with
  | nil => exact .nil none gap₁ gap₂
  | blankLeft hb _ ih => exact .blankLeft hb (ih true gap₂)
  | blankRight hb _ ih => exact .blankRight hb (ih gap₁ true)
  | char hc _ h => exact .char hc (.inr (hfree _)) h

/-- Texts that differ in spacing are split into parts that differ in spacing. -/
theorem splitFrom (hfree : ∀ c, free none c = true) {sep : Char} (hsep : isBlank sep = false)
    (h : Respaced free last gap gap' x y) (level : Int) :
    List.Forall₂ (Respaced free none false false) (Text.splitFrom sep level x)
      (Text.splitFrom sep level y) := by
  -- The induction is on the length of the text, as one part after the other is cut off.
  induction hn : x.length using Nat.strongRecOn generalizing x y last gap gap' level with
  | ind n ih =>
    rcases (h.scan (passesBlanks_splitStep hsep) level).none_or_some with
      ⟨hx, hy⟩ | ⟨cut, cut', hx, hy, hcut⟩
    · rw [splitFrom_of_scan_eq_none hx, splitFrom_of_scan_eq_none hy]
      exact .cons (h.toStart hfree false false) .nil
    · obtain ⟨c, -, hafter⟩ := hcut.after
      rw [splitFrom_of_scan_eq_some hx, splitFrom_of_scan_eq_some hy]
      exact .cons (hcut.before.toStart hfree false false)
        (ih _ (hn ▸ length_lt_of_scan hx) hafter 0 rfl)

end Respaced

/-! ## Levels -/

/-- The text never goes below level zero when it begins on the given level. -/
def StaysAbove (level : Int) : List Char → Prop
  | [] => 0 ≤ level
  | c :: rest => 0 ≤ level ∧ StaysAbove (level + nestingStep c) rest

theorem StaysAbove.nonneg (h : StaysAbove level cs) : 0 ≤ level := by
  cases cs with
  | nil => exact h
  | cons c rest => exact h.1

theorem StaysAbove.append_left {x y : List Char} (h : StaysAbove level (x ++ y)) :
    StaysAbove level x := by
  induction x generalizing level with
  | nil => exact h.nonneg
  | cons c x ih => exact ⟨h.1, ih h.2⟩

theorem staysAbove_cons_of_isBlank (hb : isBlank b = true) {x : List Char} :
    StaysAbove level (b :: x) ↔ StaysAbove level x := by
  rw [StaysAbove, nestingStep_of_isBlank hb, Int.add_zero]
  exact ⟨fun h => h.2, fun h => ⟨h.nonneg, h⟩⟩

theorem closeStep_eq_some {level level' : Nat} {c : Char} (h : closeStep level c = some level') :
    (level : Int) + nestingStep c = level' := by
  unfold closeStep at h
  unfold nestingStep
  split at h
  · next hopen =>
    cases h
    rw [if_pos hopen]
    rfl
  · next hopen =>
    rw [if_neg hopen]
    split at h
    · next hclose =>
      split at h
      · cases h
      · cases h
        rw [if_pos hclose]
        omega
    · next hclose =>
      cases h
      rw [if_neg hclose, Int.add_zero]

theorem staysAbove_of_stateAfter {level level' : Nat}
    (h : stateAfter closeStep level cs = some level') : StaysAbove level cs := by
  induction cs generalizing level with
  | nil => exact Int.natCast_nonneg level
  | cons c rest ih =>
    obtain ⟨next, hstep, hrest⟩ := Option.bind_eq_some_iff.mp h
    exact ⟨Int.natCast_nonneg level, (closeStep_eq_some hstep).symm ▸ ih hrest⟩

theorem staysAbove_cutAtClose (cs : List Char) : StaysAbove 0 (cutAtClose cs).1 := by
  unfold cutAtClose
  rw [closeFrom_eq_scan]
  cases hcut : scan closeStep 0 cs with
  | none =>
    obtain ⟨level, hlevel⟩ := exists_stateAfter_of_scan_eq_none hcut
    exact staysAbove_of_stateAfter hlevel
  | some cut =>
    obtain ⟨level, c, hlevel, -⟩ := exists_stateAfter_of_scan hcut
    exact staysAbove_of_stateAfter hlevel

theorem staysAbove_of_split (hcs : StaysAbove level cs)
    (h : scan (splitStep sep) level cs = some (part, rest)) :
    StaysAbove level part ∧ StaysAbove 0 rest := by
  induction cs generalizing level part with
  | nil => cases h
  | cons c cs ih =>
    by_cases hstop : (nestingStep c == 0 && c == sep && level == 0) = true
    · rw [scan_cons_of_none (if_pos hstop)] at h
      cases h
      have hzero : level + nestingStep c = 0 := by
        simp only [Bool.and_eq_true, beq_iff_eq] at hstop
        omega
      exact ⟨hcs.1, hzero ▸ hcs.2⟩
    · rw [scan_cons_of_some (if_neg hstop)] at h
      obtain ⟨⟨part', rest'⟩, hcut, heq⟩ := Option.map_eq_some_iff.mp h
      cases heq
      exact ⟨⟨hcs.1, (ih hcs.2 hcut).1⟩, (ih hcs.2 hcut).2⟩

theorem staysAbove_of_mem_splitFrom (hcs : StaysAbove 0 cs) (h : part ∈ splitFrom sep 0 cs) :
    StaysAbove 0 part := by
  induction hn : cs.length using Nat.strongRecOn generalizing cs with
  | ind n ih =>
    cases hcut : scan (splitStep sep) 0 cs with
    | none =>
      rw [splitFrom_of_scan_eq_none hcut] at h
      rw [List.mem_singleton.mp h]
      exact hcs
    | some cut =>
      rw [splitFrom_of_scan_eq_some hcut] at h
      obtain ⟨hpart, hrest⟩ := staysAbove_of_split hcs hcut
      rcases List.mem_cons.mp h with rfl | h
      · exact hpart
      · exact ih _ (hn ▸ length_lt_of_scan hcut) hrest h rfl

theorem isPrefix_trimEnd (x : List Char) : trimEnd x <+: x := by
  unfold trimEnd
  rw [← List.reverse_suffix, List.reverse_reverse]
  exact List.dropWhile_suffix _

theorem StaysAbove.trim (h : StaysAbove level cs) : StaysAbove level (trim cs) := by
  have hstart : StaysAbove level (trimStart cs) := by
    unfold trimStart
    induction cs with
    | nil => exact h
    | cons c rest ih =>
      cases hc : isBlank c with
      | true =>
        rw [List.dropWhile_cons_of_pos hc]
        exact ih ((staysAbove_cons_of_isBlank hc).mp h)
      | false =>
        rw [List.dropWhile_cons_of_neg (by simp [hc])]
        exact h
  obtain ⟨blanks, hblanks⟩ := isPrefix_trimEnd (trimStart cs)
  rw [← hblanks] at hstart
  exact hstart.append_left

end SymbolAtlas.Text
