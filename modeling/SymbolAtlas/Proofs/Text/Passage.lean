import SymbolAtlas.Proofs.Text.Scanning

/-!
# Reading past a text

A reader that does not stop inside of a text goes on behind it, in a state that depends on the text
alone and not on its blanks. What stands between the commas of a list in brackets is passed by the
reader that looks for the closing bracket and by the one that looks for the next comma, and both are
behind it as they were before. So the list can be put together again from such parts.
-/

set_option autoImplicit false

namespace SymbolAtlas.Text

variable {x : List Char} {free : Option Char → Char → Bool} {sep : Char}

/-! ## Parts of a list -/

/-- A text that can be an entry of a list: its brackets are closed, and no comma stands outside of
them. -/
structure IsEntry (x : List Char) : Prop where
  isClosed : stateAfter closeStep 0 x = some 0
  isWhole : stateAfter (splitStep ',') 0 x = some 0

theorem IsEntry.staysAbove (h : IsEntry x) : StaysAbove 0 x :=
  staysAbove_of_stateAfter h.isClosed

theorem IsEntry.respaced {y : List Char} {last : Option Char} {gap gap' : Bool} (h : IsEntry x)
    (hxy : Respaced free last gap gap' x y) : IsEntry y where
  isClosed := (hxy.stateAfter_eq passesBlanks_closeStep 0).symm.trans h.isClosed
  isWhole := (hxy.stateAfter_eq (passesBlanks_splitStep (by decide)) 0).symm.trans h.isWhole

theorem eq_zero_of_closeStep {level : Nat} {c : Char} (h : closeStep level c = none) :
    level = 0 := by
  unfold closeStep at h
  split at h
  · cases h
  · split at h
    · split at h
      · assumption
      · cases h
    · cases h

theorem splitStep_eq_none {sep c : Char} {level : Int} (h : splitStep sep level c = none) :
    c = sep ∧ level = 0 := by
  unfold splitStep at h
  split at h
  · next hstop =>
    simp only [Bool.and_eq_true, beq_iff_eq] at hstop
    exact ⟨hstop.1.2, hstop.2⟩
  · cases h

theorem splitStep_eq_some {sep c : Char} {level level' : Int}
    (h : splitStep sep level c = some level') : level + nestingStep c = level' := by
  unfold splitStep at h
  split at h
  · cases h
  · exact Option.some.inj h

theorem stateAfter_splitStep_eq {sep : Char} {level closed : Nat} {split : Int}
    (hclosed : stateAfter closeStep level x = some closed)
    (hsplit : stateAfter (splitStep sep) level x = some split) : split = closed := by
  induction x generalizing level with
  | nil =>
    cases hclosed
    cases hsplit
    rfl
  | cons c x ih =>
    obtain ⟨level₁, hclose, hclosed⟩ := Option.bind_eq_some_iff.mp hclosed
    obtain ⟨level₂, hstep, hsplit⟩ := Option.bind_eq_some_iff.mp hsplit
    rw [← splitStep_eq_some hstep, closeStep_eq_some hclose] at hsplit
    exact ih hclosed hsplit

theorem stateAfter_of_closeFrom {cs inner after : List Char}
    (h : closeFrom 0 cs = some (inner, after)) : stateAfter closeStep 0 inner = some 0 := by
  rw [closeFrom_eq_scan] at h
  obtain ⟨level, c, hlevel, hstop, -⟩ := exists_stateAfter_of_scan h
  rw [hlevel, eq_zero_of_closeStep hstop]

/-- Taking a text apart: it is one part, or the first part is what stands before the first separator on
level zero. The induction is on the length of the text, as one part after the other is cut off. -/
theorem splitFrom_induction {P : List Char → List (List Char) → Prop}
    (whole : ∀ x, scan (splitStep sep) 0 x = none → P x [x])
    (cut : ∀ part rest, stateAfter (splitStep sep) 0 part = some 0 →
      P rest (splitFrom sep 0 rest) → P (part ++ sep :: rest) (part :: splitFrom sep 0 rest))
    (cs : List Char) : P cs (splitFrom sep 0 cs) := by
  induction hn : cs.length using Nat.strongRecOn generalizing cs with
  | ind n ih =>
    cases hcut : scan (splitStep sep) 0 cs with
    | none =>
      rw [splitFrom_of_scan_eq_none hcut]
      exact whole cs hcut
    | some parts =>
      obtain ⟨part, rest⟩ := parts
      rw [splitFrom_of_scan_eq_some hcut]
      have hrest := ih _ (hn ▸ length_lt_of_scan hcut) rest rfl
      obtain ⟨level, c, hlevel, hstop, rfl⟩ := exists_stateAfter_of_scan hcut
      obtain ⟨rfl, rfl⟩ := splitStep_eq_none hstop
      exact cut part rest hlevel hrest

theorem isEntry_of_mem_splitFrom {inner part : List Char}
    (hinner : stateAfter closeStep 0 inner = some 0) (h : part ∈ splitFrom ',' 0 inner) :
    IsEntry part := by
  revert hinner h
  refine splitFrom_induction (P := fun inner parts => stateAfter closeStep 0 inner = some 0 →
    part ∈ parts → IsEntry part) (fun x hcut hinner h => ?_) (fun first rest hfirst ih hinner h => ?_)
    inner
  · obtain rfl := List.mem_singleton.mp h
    obtain ⟨level, hlevel⟩ := exists_stateAfter_of_scan_eq_none hcut
    exact ⟨hinner, by rw [hlevel, stateAfter_splitStep_eq hinner hlevel]; rfl⟩
  · rw [stateAfter_append] at hinner
    obtain ⟨closed, hclosed, hinner⟩ := Option.bind_eq_some_iff.mp hinner
    obtain rfl : closed = 0 := Int.ofNat.inj (stateAfter_splitStep_eq hclosed hfirst).symm
    rcases List.mem_cons.mp h with rfl | h
    · exact ⟨hclosed, hfirst⟩
    · exact ih hinner h

/-! ## Putting a list together -/

theorem IsEntry.cons_space (h : IsEntry x) : IsEntry (' ' :: x) :=
  h.respaced (.blankRight (by decide) (.refl (fun _ _ => true) none true x) :
    Respaced (fun _ _ => true) none true false x (' ' :: x))

section Join

variable {x : List Char} {xs : List (List Char)}

/-- No bracket is left open by a list of entries that leave none open. -/
theorem stateAfter_intercalate (h : ∀ x ∈ xs, IsEntry x) :
    stateAfter closeStep 0 (List.intercalate [',', ' '] xs) = some 0 := by
  induction xs with
  | nil => rfl
  | cons x xs ih =>
    have hx := (h x List.mem_cons_self).isClosed
    cases xs with
    | nil => rwa [List.intercalate_singleton]
    | cons y xs =>
      rw [List.intercalate_cons_cons, List.append_assoc, stateAfter_append, hx]
      exact ih fun z hz => h z (List.mem_cons_of_mem _ hz)

theorem splitFrom_append_sep (hsep : nestingStep sep = 0)
    (hx : stateAfter (splitStep sep) 0 x = some 0) (rest : List Char) :
    splitFrom sep 0 (x ++ sep :: rest) = x :: splitFrom sep 0 rest := by
  refine splitFrom_of_scan_eq_some ?_
  rw [scan_append_of_stateAfter hx, scan_cons_of_none (by simp [splitStep, hsep])]
  simp

theorem splitFrom_of_isEntry (hx : IsEntry x) : splitFrom ',' 0 x = [x] :=
  splitFrom_of_scan_eq_none (scan_eq_none_of_stateAfter hx.isWhole)

theorem map_trim_splitFrom_intercalate (hx : IsEntry x) (h : ∀ x ∈ xs, IsEntry x) :
    (splitFrom ',' 0 (List.intercalate [',', ' '] (x :: xs))).map trim = (x :: xs).map trim := by
  induction xs generalizing x with
  | nil => rw [List.intercalate_singleton, splitFrom_of_isEntry hx]
  | cons y xs ih =>
    have hy := h y List.mem_cons_self
    have hnext : ' ' :: List.intercalate [',', ' '] (y :: xs)
        = List.intercalate [',', ' '] ((' ' :: y) :: xs) := by
      cases xs <;> simp [List.intercalate_cons_cons]
    have htrim : trim (' ' :: y) = trim y := rfl
    rw [List.intercalate_cons_cons, List.append_assoc, List.cons_append, List.singleton_append,
      splitFrom_append_sep (by decide) hx.isWhole, hnext, List.map_cons,
      ih hy.cons_space fun z hz => h z (List.mem_cons_of_mem _ hz), List.map_cons]
    rfl

end Join

/-! ## Parts of any text -/

/-- The nesting level behind a text. -/
def levelAfter (level : Int) (x : List Char) : Int :=
  x.foldl (fun level c => level + nestingStep c) level

theorem eq_levelAfter_of_stateAfter {level level' : Int}
    (h : stateAfter (splitStep sep) level x = some level') : level' = levelAfter level x := by
  induction x generalizing level with
  | nil => exact (Option.some.inj h).symm
  | cons c x ih =>
    obtain ⟨next, hstep, hrest⟩ := Option.bind_eq_some_iff.mp h
    rw [ih hrest, ← splitStep_eq_some hstep]
    rfl

theorem splitFrom_ne_nil (sep : Char) (x : List Char) : splitFrom sep 0 x ≠ [] :=
  splitFrom_induction (P := fun _ parts => parts ≠ []) (fun x _ => List.cons_ne_nil x [])
    (fun part rest _ _ => List.cons_ne_nil part (splitFrom sep 0 rest)) x

theorem scan_eq_none_of_splitFrom_eq (h : splitFrom sep 0 x = [x]) :
    scan (splitStep sep) 0 x = none := by
  cases hcut : scan (splitStep sep) 0 x with
  | none => rfl
  | some cut =>
    rw [splitFrom_of_scan_eq_some hcut] at h
    exact absurd (List.cons.inj h).2 (splitFrom_ne_nil sep cut.2)

theorem intercalate_splitFrom (sep : Char) (x : List Char) :
    List.intercalate [sep] (splitFrom sep 0 x) = x := by
  refine splitFrom_induction (P := fun x parts => List.intercalate [sep] parts = x)
    (fun x _ => List.intercalate_singleton) (fun part rest _ ih => ?_) x
  obtain ⟨next, parts, hparts⟩ := List.exists_cons_of_ne_nil (splitFrom_ne_nil sep rest)
  rw [hparts] at ih ⊢
  rw [List.intercalate_cons_cons, ih, List.append_assoc, List.singleton_append]

/-- Parts that are joined by a separator are split again into the same parts. -/
theorem splitFrom_intercalate (hsep : nestingStep sep = 0) {xs : List (List Char)}
    (hwhole : ∀ p ∈ x :: xs, splitFrom sep 0 p = [p])
    (hclosed : ∀ p ∈ (x :: xs).dropLast, levelAfter 0 p = 0) :
    splitFrom sep 0 (List.intercalate [sep] (x :: xs)) = x :: xs := by
  induction xs generalizing x with
  | nil =>
    rw [List.intercalate_singleton]
    exact hwhole x List.mem_cons_self
  | cons y xs ih =>
    rw [List.dropLast_cons_cons, List.forall_mem_cons] at hclosed
    rw [List.forall_mem_cons] at hwhole
    obtain ⟨level, hlevel⟩ :=
      exists_stateAfter_of_scan_eq_none (scan_eq_none_of_splitFrom_eq hwhole.1)
    rw [eq_levelAfter_of_stateAfter hlevel, hclosed.1] at hlevel
    rw [List.intercalate_cons_cons, List.append_assoc, List.singleton_append,
      splitFrom_append_sep hsep hlevel, ih hwhole.2 hclosed.2]

/-- Joining the parts of a text gives it back, and none of them has further parts. If the separator is
no bracket, there is no other way to put the text together from parts without further parts of which
all but the last are closed. -/
theorem splitTopLevel_join (sep : Char) (x : List Char) :
    List.intercalate [sep] (splitTopLevel sep x) = x ∧
    (∀ p ∈ splitTopLevel sep x, splitTopLevel sep p = [p]) ∧
    (isOpening sep = false → isClosing sep = false → ∀ parts : List (List Char), parts ≠ [] →
      (∀ p ∈ parts, splitTopLevel sep p = [p]) → (∀ p ∈ parts.dropLast, levelAfter 0 p = 0) →
      List.intercalate [sep] parts = x → parts = splitTopLevel sep x) := by
  refine ⟨intercalate_splitFrom sep x, ?_, fun hopening hclosing parts hne hwhole hclosed hjoin => ?_⟩
  · refine splitFrom_induction (P := fun _ parts => ∀ p ∈ parts, splitTopLevel sep p = [p])
      (fun x hx => ?_) (fun part rest hpart ih => ?_) x
    · exact List.forall_mem_singleton.mpr (splitFrom_of_scan_eq_none hx)
    · exact List.forall_mem_cons.mpr
        ⟨splitFrom_of_scan_eq_none (scan_eq_none_of_stateAfter hpart), ih⟩
  · obtain ⟨first, rest, rfl⟩ := List.exists_cons_of_ne_nil hne
    have hsep : nestingStep sep = 0 := by simp [nestingStep, hopening, hclosing]
    rw [← hjoin]
    exact (splitFrom_intercalate hsep hwhole hclosed).symm

/-- A comma in brackets does not separate, nor does one behind a bracket that closes too much. -/
theorem splitTopLevel_join_malformed :
    (∀ p ∈ ["f<a,b>".toList, "".toList, "c),d".toList], splitTopLevel ',' p = [p]) ∧
      levelAfter 0 "f<a,b>".toList = 0 ∧
      splitTopLevel ',' "f<a,b>,,c),d".toList =
        ["f<a,b>".toList, "".toList, "c),d".toList] := by
  have hwhole : ∀ p ∈ ["f<a,b>".toList, "".toList, "c),d".toList], splitTopLevel ',' p = [p] := by
    decide
  have hclosed : ∀ p ∈ ["f<a,b>".toList, "".toList], levelAfter 0 p = 0 := by
    decide
  refine ⟨hwhole, hclosed _ List.mem_cons_self, ?_⟩
  exact ((splitTopLevel_join ',' _).2.2 rfl rfl _ (by simp) hwhole hclosed (by decide)).symm

end SymbolAtlas.Text
