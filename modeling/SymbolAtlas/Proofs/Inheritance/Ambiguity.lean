import SymbolAtlas.Proofs.Inheritance.Provenance
import SymbolAtlas.Proofs.Inheritance.Reception

/-!
# Members that a class reaches in two ways

A member that comes into a class along two edges ought to be marked with the base that it came
through. The earlier of the two views is marked with what its path shows before the first separator,
which is the base as long as its name holds no separator. The later one is marked with its base,
unless the base had it with that mark already, or the class hides it.
-/

set_option autoImplicit false

namespace SymbolAtlas

/-! ## The first part of a path -/

namespace Text

theorem cut_append {pat cs before after : List Char} (h : cut pat cs = some (before, after))
    (rest : List Char) : cut pat (cs ++ rest) = some (before, after ++ rest) := by
  induction cs generalizing before after with
  | nil =>
    unfold cut at h
    split at h
    · next hempty =>
      obtain ⟨rfl, rfl⟩ : [] = before ∧ [] = after := by simpa using h
      rw [List.isEmpty_iff.mp hempty]
      cases rest <;> rfl
    · cases h
  | cons c cs ih =>
    rw [List.cons_append]
    unfold cut at h ⊢
    split at h
    · next hstarts =>
      have hstarts' := List.isPrefixOf_iff_prefix.mp hstarts
      have hlonger : pat <+: c :: (cs ++ rest) := hstarts'.trans (List.prefix_append (c :: cs) rest)
      obtain ⟨rfl, rfl⟩ : [] = before ∧ (c :: cs).drop pat.length = after := by simpa using h
      rw [if_pos (List.isPrefixOf_iff_prefix.mpr hlonger), ← List.cons_append,
        List.drop_append_of_le_length hstarts'.length_le]
    · next hstarts =>
      obtain ⟨⟨before', after'⟩, hcut, heq⟩ := Option.map_eq_some_iff.mp h
      obtain ⟨rfl, rfl⟩ : c :: before' = before ∧ after' = after := by simpa using heq
      -- The pattern fits into `cs`, so it does not reach into the rest.
      have hfits : pat.length ≤ (c :: cs).length := by
        have hlength := length_of_cut hcut
        simp only [List.length_cons]
        omega
      rw [if_neg, ih hcut, Option.map_some]
      intro hlonger
      exact hstarts (List.isPrefixOf_iff_prefix.mpr (List.prefix_of_prefix_length_le
        (List.isPrefixOf_iff_prefix.mp hlonger) (List.prefix_append (c :: cs) rest) hfits))

theorem isSome_cut_append (pat cs : List Char) : (cut pat (cs ++ pat)).isSome = true := by
  induction cs with
  | nil =>
    cases pat with
    | nil => rfl
    | cons c pat =>
      rw [List.nil_append]
      unfold cut
      rw [if_pos (by simp)]
      rfl
  | cons c cs ih =>
    rw [List.cons_append]
    unfold cut
    split
    · rfl
    · rw [Option.isSome_map]
      exact ih

end Text

namespace Passage

/-- The base of an edge as a scope. -/
def scope (passage : Passage) : List Char :=
  (passage.baseName ++ passage.separator).toList

/-- The name of the base ends where the first separator is. -/
def IsPlain (passage : Passage) : Prop :=
  Text.cut passage.separator.toList passage.scope = some (passage.baseName.toList, [])

instance (passage : Passage) : Decidable passage.IsPlain :=
  inferInstanceAs (Decidable (_ = _))

theorem exists_cut_scope (passage : Passage) :
    ∃ before after, Text.cut passage.separator.toList passage.scope = some (before, after) := by
  have hsome := Text.isSome_cut_append passage.separator.toList passage.baseName.toList
  rw [← String.toList_append] at hsome
  obtain ⟨⟨before, after⟩, hcut⟩ := Option.isSome_iff_exists.mp hsome
  exact ⟨before, after, hcut⟩

theorem toList_path (passage : Passage) (v : View) :
    (passage.path v).toList = passage.scope ++ v.path.toList := by
  rw [path, String.toList_append]
  rfl

variable {passage : Passage} {s t : View}

theorem firstScope_prefix_scope (hpath : t.path = passage.path s) :
    t.firstScope passage.separator <+: passage.scope := by
  obtain ⟨before, after, hcut⟩ := passage.exists_cut_scope
  rw [View.firstScope, hpath, toList_path, Text.cut_append hcut, Text.cut_eq_some hcut]
  exact List.prefix_append _ _

theorem firstScope_ne_nil (hpath : t.path = passage.path s) (hseparator : passage.separator ≠ "") :
    t.firstScope passage.separator ≠ [] := by
  obtain ⟨before, after, hcut⟩ := passage.exists_cut_scope
  rw [View.firstScope, hpath, toList_path, Text.cut_append hcut]
  simp [hseparator]

theorem IsPlain.firstScope_eq (h : passage.IsPlain) (hpath : t.path = passage.path s) :
    t.firstScope passage.separator = passage.scope := by
  rw [View.firstScope, hpath, toList_path, Text.cut_append h]
  exact String.toList_append.symm

end Passage

/-! ## Marks -/

namespace View

variable {separator : String} {v w : View}

theorem Marked.firstScope_eq (h : v.Marked separator w) :
    w.firstScope separator = v.firstScope separator := by
  rw [h.eq]
  rfl

theorem firstScope_prefix_markedAmbiguous (v : View) (separator : String) :
    v.firstScope separator <+: (v.markedAmbiguous separator).ambiguityScope.toList := by
  rw [markedAmbiguous]
  split
  · next hstarts => exact List.isPrefixOf_iff_prefix.mp hstarts
  · rw [String.toList_append, String.toList_ofList]
    exact List.prefix_append _ _

theorem Marked.eq_of_firstScope_prefix (h : v.Marked separator w)
    (hstarts : v.firstScope separator <+: v.ambiguityScope.toList) : w = v := by
  rcases h with rfl | rfl
  · rfl
  · rw [markedAmbiguous, if_pos (List.isPrefixOf_iff_prefix.mpr hstarts)]

theorem Marked.eq_of_markedAmbiguous (h : (v.markedAmbiguous separator).Marked separator w) :
    w = v.markedAmbiguous separator := by
  apply h.eq_of_firstScope_prefix
  rw [Marked.firstScope_eq (.inr rfl)]
  exact v.firstScope_prefix_markedAmbiguous separator

theorem Marked.markedAmbiguous_eq (h : v.Marked separator w) :
    w.markedAmbiguous separator = v.markedAmbiguous separator := by
  rcases h with rfl | rfl
  · rfl
  · exact v.markedAmbiguous_markedAmbiguous separator

theorem Marked.ambiguityScope_eq (h : v.Marked separator w) :
    w.ambiguityScope = v.ambiguityScope ∨
      w.ambiguityScope.toList = v.firstScope separator ++ v.ambiguityScope.toList := by
  rcases h with rfl | rfl
  · exact .inl rfl
  · rw [markedAmbiguous]
    split
    · exact .inl rfl
    · right
      rw [String.toList_append, String.toList_ofList]

theorem Marked.ambiguityScope_suffix (h : v.Marked separator w) :
    v.ambiguityScope.toList <:+ w.ambiguityScope.toList := by
  rcases h.ambiguityScope_eq with heq | heq
  · exact heq ▸ List.suffix_rfl
  · rw [heq]
    exact List.suffix_append _ _

theorem isAmbiguous_of_infix {scope : List Char} (h : scope <:+: v.ambiguityScope.toList)
    (hscope : scope ≠ []) : v.isAmbiguous = true := by
  have hne : v.ambiguityScope ≠ "" := by
    intro hempty
    rw [hempty] at h
    exact hscope (List.infix_nil.mp h)
  simpa [isAmbiguous] using hne

end View

namespace Atlas

variable {passage : Passage} {views : List View} {met : Meetings}

/-! ## Two views of one member -/

theorem meeting_of_member_eq (a : Atlas) (passage : Passage) {incoming present : View}
    (source target : Member) (h : incoming.member = present.member) :
    (a.meeting passage incoming source present target).value = .covered ∨
      (a.meeting passage incoming source present target).value = .ambiguous := by
  unfold meeting
  rw [if_neg (not_not.mpr h)]
  dsimp only
  split
  · exact .inl rfl
  · exact .inr rfl

theorem length_confront (a : Atlas) (passage : Passage) (incoming : View) (source : Member)
    (present : List View) :
    (a.confront passage incoming source present).value.2.length = present.length := by
  induction present with
  | nil => rfl
  | cons view rest ih =>
    unfold confront
    cases a.member? view.member with
    | none => exact congrArg (· + 1) ih
    | some target =>
      rw [Noted.value_bind]
      cases (a.meeting passage incoming source view target).value with
      | covered => rfl
      | hidden => exact congrArg (· + 1) ih
      | ambiguous => exact congrArg (· + 1) ih

/-- A member that is met again is ambiguous, and its view is marked. -/
theorem confront_shared {a : Atlas} {incoming : View} {source : Member}
    (hsource : a.member? incoming.member = some source) {present : List View}
    (hcovered : (a.confront passage incoming source present).value.1.isCovered = false) {i : Nat}
    {v : View} (hv : present[i]? = some v) (hmember : v.member = incoming.member) :
    (a.confront passage incoming source present).value.1.isAmbiguous = true ∧
      (a.confront passage incoming source present).value.2[i]? =
        some (v.markedAmbiguous passage.separator) := by
  induction present generalizing i with
  | nil => simp at hv
  | cons view rest ih =>
    unfold confront at hcovered ⊢
    cases i with
    | zero =>
      obtain rfl : view = v := by simpa using hv
      rw [hmember, hsource] at hcovered ⊢
      simp only [Noted.value_bind] at hcovered ⊢
      rcases a.meeting_of_member_eq passage source source hmember.symm with hmeeting | hmeeting
      · rw [hmeeting] at hcovered
        cases hcovered
      · rw [hmeeting]
        exact ⟨rfl, rfl⟩
    | succ i =>
      cases hview : a.member? view.member with
      | none =>
        rw [hview] at hcovered
        exact ih hcovered hv
      | some target =>
        simp only [hview, Noted.value_bind] at hcovered ⊢
        cases hmeeting : (a.meeting passage incoming source view target).value with
        | covered =>
          rw [hmeeting] at hcovered
          cases hcovered
        | hidden =>
          rw [hmeeting] at hcovered
          exact ih hcovered hv
        | ambiguous =>
          rw [hmeeting] at hcovered
          exact ⟨rfl, (ih hcovered hv).2⟩

/-! ## The loop under one name -/

theorem exists_turn {separator : String} {R : View → View → Prop} {f : List View → View → List View}
    (hf : ∀ views s, View.Grown separator (R s) views (f views s)) {incoming : List View} {j : Nat}
    {u : View} (hu : (incoming.foldl f views)[j]? = some u) (hj : views.length ≤ j) :
    ∃ earlier s later u₀, incoming = earlier ++ s :: later ∧
      (earlier.foldl f views).length ≤ j ∧ (f (earlier.foldl f views) s)[j]? = some u₀ ∧
      u₀.Marked separator u := by
  induction incoming generalizing views with
  | nil =>
    obtain ⟨hlt, -⟩ := List.getElem?_eq_some_iff.mp hu
    exact absurd hlt (Nat.not_lt.mpr hj)
  | cons s rest ih =>
    by_cases hturn : j < (f views s).length
    · obtain ⟨w, hw, hmarked⟩ := (foldl_grown_any hf rest (f views s)).getElem?_kept
        (List.getElem?_eq_getElem hturn)
      obtain rfl : w = u := Option.some.inj (hw.symm.trans hu)
      exact ⟨[], s, rest, _, rfl, hj, List.getElem?_eq_getElem hturn, hmarked⟩
    · obtain ⟨earlier, s', later, u₀, rfl, hlength, hu₀, hmarked⟩ := ih hu (Nat.not_lt.mp hturn)
      exact ⟨s :: earlier, s', later, u₀, rfl, hlength, hu₀, hmarked⟩

theorem receiveAmong_shared {a : Atlas} {s t u : View} {i j : Nat}
    (hu : (a.receiveAmong passage views s)[j]? = some u) (hj : views.length ≤ j)
    (ht : views[i]? = some t) (hmember : t.member = u.member) :
    (a.receiveAmong passage views s)[i]? = some (t.markedAmbiguous passage.separator) ∧
      ∃ p met, met.isAmbiguous = true ∧ u = a.passedAmong passage s p met := by
  obtain ⟨hlt, -⟩ := List.getElem?_eq_some_iff.mp hu
  rcases a.receiveAmong_cases passage views s with ⟨-, hviews⟩ | ⟨source, hsource, hcases⟩
  · rw [hviews] at hlt
    exact absurd hlt (Nat.not_lt.mpr hj)
  · have hlength := a.length_confront passage s source views
    rcases hcases with ⟨-, hviews⟩ | ⟨hcovered, -, -, hviews⟩
    · rw [hviews, hlength] at hlt
      exact absurd hlt (Nat.not_lt.mpr hj)
    · rw [hviews, List.length_append, List.length_singleton] at hlt
      have hlast : j - (a.confront passage s source views).value.2.length = 0 := by omega
      rw [hviews, List.getElem?_append_right (by omega), hlast] at hu
      cases hu
      rw [member_passedAmong] at hmember
      obtain ⟨hambiguous, hmarked⟩ := confront_shared hsource hcovered ht hmember
      obtain ⟨hi, -⟩ := List.getElem?_eq_some_iff.mp ht
      rw [hviews, List.getElem?_append_left (by omega)]
      exact ⟨hmarked, _, _, hambiguous, rfl⟩

theorem foldl_receiveAmong_shared {a : Atlas} {incoming : List View} {t u : View} {i j : Nat}
    (hu : (incoming.foldl (a.receiveAmong passage) views)[j]? = some u) (hj : views.length ≤ j)
    (ht : views[i]? = some t) (hmember : t.member = u.member) :
    (incoming.foldl (a.receiveAmong passage) views)[i]? =
        some (t.markedAmbiguous passage.separator) ∧
      ∃ s ∈ incoming, ∃ p met, met.isAmbiguous = true ∧
        (a.passedAmong passage s p met).Marked passage.separator u := by
  have hgrown := a.receiveAmong_grown passage
  obtain ⟨earlier, s, later, u₀, rfl, hlength, hu₀, hmarked⟩ := exists_turn hgrown hu hj
  obtain ⟨t₀, ht₀, hmarked₀⟩ := (foldl_grown_any hgrown earlier views).getElem?_kept ht
  have hmember₀ : t₀.member = u₀.member := by
    rw [hmarked.eq] at hmember
    rw [hmarked₀.eq]
    exact hmember
  obtain ⟨ht₁, p, met, hambiguous, rfl⟩ := receiveAmong_shared hu₀ hlength ht₀ hmember₀
  rw [List.foldl_append, List.foldl_cons]
  obtain ⟨t₂, ht₂, hmarked₂⟩ := (foldl_grown_any hgrown later _).getElem?_kept ht₁
  rw [ht₂, hmarked₂.eq_of_markedAmbiguous, hmarked₀.markedAmbiguous_eq]
  exact ⟨rfl, s, by simp, p, met, hambiguous, hmarked⟩

/-! ## All edges -/

/-- The view in a place under a name of a class came along an edge, which follows others. -/
def CameAlong (a : Atlas) (separator : String) (own : Roster) (before : List BaseEdge)
    (edge : BaseEdge) (name : String) (place : Nat) : Prop :=
  ((a.takenOver separator own before).1.under name).length ≤ place ∧
    place < ((a.takenOver separator own (before ++ [edge])).1.under name).length

instance (a : Atlas) (separator : String) (own : Roster) (before : List BaseEdge)
    (edge : BaseEdge) (name : String) (place : Nat) :
    Decidable (a.CameAlong separator own before edge name place) :=
  inferInstanceAs (Decidable (_ ∧ _))

/-- How a class has a view `u` that was made of the view `s` of a base, of a member that the class
had before. -/
inductive IsScopedLate (a : Atlas) (passage : Passage) (s u : View) : Prop where
  /-- Marked with the base. -/
  | marked (visible : u.ambiguousWith = none) (isNew : ¬ passage.scope <+: s.ambiguityScope.toList)
      (isAmbiguous : u.isAmbiguous = true) (isScoped : passage.scope <+: u.ambiguityScope.toList)
  /-- Not marked when it came, since it had the mark in the base. -/
  | repeated (visible : u.ambiguousWith = none) (isOld : passage.scope <+: s.ambiguityScope.toList)
      (isCut : u.ambiguityScope = "" ∨ u.ambiguityScope.toList = u.firstScope passage.separator)
  /-- Marked with the class that hides it. -/
  | hidden (hider : EntityId) (isHidden : u.ambiguousWith = some hider)
      (isFirst : hider = s.ambiguousWith.getD passage.edge.target)
      (isAmbiguous : u.isAmbiguous = true)
      (isScoped : (a.name hider ++ passage.separator).toList <:+ u.ambiguityScope.toList)
      (isBase : a.name hider = passage.baseName → passage.scope <+: u.ambiguityScope.toList)

section

variable (a : Atlas) (passage : Passage) (incoming : View) (p : Protection)

theorem path_passedAmong (met : Meetings) :
    (a.passedAmong passage incoming p met).path = passage.path incoming := by
  unfold passedAmong
  dsimp only
  split <;> split <;> rfl

theorem passedAmong_hidden (hhidden : met.isHidden = true) :
    let hider := incoming.ambiguousWith.getD passage.edge.target
    (a.passedAmong passage incoming p met).ambiguousWith = some hider ∧
      (a.passedAmong passage incoming p met).ambiguityScope =
        a.name hider ++ passage.separator := by
  unfold passedAmong
  rw [if_pos hhidden]
  exact ⟨rfl, rfl⟩

theorem passedAmong_visible (hhidden : met.isHidden = false) (hambiguous : met.isAmbiguous = true) :
    (a.passedAmong passage incoming p met).ambiguousWith = none ∧
      (a.passedAmong passage incoming p met).ambiguityScope =
        if passage.scope.isPrefixOf incoming.ambiguityScope.toList then ""
        else passage.baseName ++ passage.separator ++ incoming.ambiguityScope := by
  unfold passedAmong Passage.scope
  simp only [hhidden, hambiguous, Bool.true_and, Bool.false_eq_true, if_false]
  cases (passage.baseName ++ passage.separator).toList.isPrefixOf
      incoming.ambiguityScope.toList with
  | true => exact ⟨rfl, rfl⟩
  | false => exact ⟨rfl, rfl⟩

end

theorem isScopedLate_of_marked {a : Atlas} {s u : View} {p : Protection}
    (hseparator : passage.separator ≠ "") (hambiguous : met.isAmbiguous = true)
    (hmarked : (a.passedAmong passage s p met).Marked passage.separator u) :
    a.IsScopedLate passage s u := by
  have hfirst := Passage.firstScope_prefix_scope (a.path_passedAmong passage s p met)
  have hwith : u.ambiguousWith = (a.passedAmong passage s p met).ambiguousWith := by
    rw [hmarked.eq]
  -- Once the scope of the base stands in front, no further mark is added.
  have hstable (h : passage.scope <+: (a.passedAmong passage s p met).ambiguityScope.toList) :
      passage.scope <+: u.ambiguityScope.toList := by
    rw [hmarked.eq_of_firstScope_prefix (hfirst.trans h)]
    exact h
  cases hhidden : met.isHidden with
  | true =>
    obtain ⟨hsome, hscope⟩ := a.passedAmong_hidden passage s p hhidden
    have hsuffix : (a.name (s.ambiguousWith.getD passage.edge.target) ++
        passage.separator).toList <:+ u.ambiguityScope.toList := by
      rw [← hscope]
      exact hmarked.ambiguityScope_suffix
    refine .hidden _ (hwith.trans hsome) rfl ?_ hsuffix ?_
    · exact View.isAmbiguous_of_infix hsuffix.isInfix (by simp [hseparator])
    · intro hname
      apply hstable
      rw [hscope, hname]
      exact List.prefix_rfl
  | false =>
    obtain ⟨hnone, hscope⟩ := a.passedAmong_visible passage s p hhidden hambiguous
    by_cases hold : passage.scope <+: s.ambiguityScope.toList
    · rw [if_pos (List.isPrefixOf_iff_prefix.mpr hold)] at hscope
      refine .repeated (hwith.trans hnone) hold ?_
      rcases hmarked.ambiguityScope_eq with heq | heq
      · exact .inl (heq.trans hscope)
      · right
        rw [heq, hscope, hmarked.firstScope_eq, String.toList_empty, List.append_nil]
    · rw [if_neg fun h => hold (List.isPrefixOf_iff_prefix.mp h)] at hscope
      have hscoped : passage.scope <+: u.ambiguityScope.toList := by
        apply hstable
        rw [hscope, String.toList_append]
        exact List.prefix_append _ _
      exact .marked (hwith.trans hnone) hold
        (View.isAmbiguous_of_infix hscoped.isInfix (by simp [Passage.scope, hseparator])) hscoped

section AllEdges

variable {a : Atlas} {separator : String} {own : Roster} {before later : List BaseEdge}
  {edge : BaseEdge} {name : String} {i j : Nat} {t u : View}

variable (hj : a.CameAlong separator own before edge name j)

include hj

theorem CameAlong.exists_marked
    (hu : ((a.takenOver separator own (before ++ edge :: later)).1.under name)[j]? = some u) :
    ∃ u₀, ((a.takenOver separator own (before ++ [edge])).1.under name)[j]? = some u₀ ∧
      u₀.Marked separator u := by
  have hgrown := a.takenOver_append_grown separator own (before ++ [edge]) later name
  rw [List.append_assoc] at hgrown
  obtain ⟨u', hu', hmarked⟩ := hgrown.getElem?_kept (List.getElem?_eq_getElem hj.2)
  obtain rfl : u' = u := Option.some.inj (hu'.symm.trans hu)
  exact ⟨_, List.getElem?_eq_getElem hj.2, hmarked⟩

theorem CameAlong.exists_path
    (hu : ((a.takenOver separator own (before ++ edge :: later)).1.under name)[j]? = some u) :
    ∃ s, u.path = (a.passage separator edge).path s := by
  obtain ⟨u₀, hu₀, hmarked⟩ := hj.exists_marked hu
  rw [takenOver_append] at hu₀
  have hgrown := a.inheritFrom_grown separator (a.takenOver separator own before) edge name
  obtain ⟨s, -, harrival⟩ := hgrown.getElem?_new hu₀ hj.1
  exact ⟨s, (harrival.marked hmarked).path⟩

theorem CameAlong.shared (hseparator : separator ≠ "")
    (hu : ((a.takenOver separator own (before ++ edge :: later)).1.under name)[j]? = some u)
    (ht : ((a.takenOver separator own before).1.under name)[i]? = some t)
    (hmember : t.member = u.member) :
    ((a.takenOver separator own (before ++ edge :: later)).1.under name)[i]? =
        some (t.markedAmbiguous separator) ∧
      ∃ s ∈ (a.rosterOf edge.target).under name, s.member = u.member ∧
        u.path = (a.passage separator edge).path s ∧
        a.IsScopedLate (a.passage separator edge) s u := by
  obtain ⟨u₀, hu₀, hmarked⟩ := hj.exists_marked hu
  -- The class has the name, so the views of the base come among others.
  obtain ⟨views, hviews⟩ : ∃ views, (a.takenOver separator own before).1.get? name = some views := by
    unfold Roster.under at ht
    cases hget : (a.takenOver separator own before).1.get? name with
    | none => simp [hget] at ht
    | some views => exact ⟨views, rfl⟩
  have hunder : (a.takenOver separator own before).1.under name = views := by
    rw [Roster.under, hviews, Option.getD_some]
  have hafter : (a.takenOver separator own (before ++ [edge])).1.under name =
      ((a.rosterOf edge.target).under name).foldl
        (a.receiveAmong (a.passage separator edge)) views := by
    rw [takenOver_append, under_inheritFrom, hviews]
    rfl
  rw [hafter] at hu₀
  have hplace := hj.1
  rw [hunder] at hplace ht
  have hmember₀ : t.member = u₀.member := by
    rw [hmarked.eq] at hmember
    exact hmember
  obtain ⟨ht₀, s, hs, p, met, hambiguous, hpassed⟩ :=
    foldl_receiveAmong_shared hu₀ hplace ht hmember₀
  have hpassed' := hpassed.trans hmarked
  constructor
  · have hgrown := a.takenOver_append_grown separator own (before ++ [edge]) later name
    rw [List.append_assoc, List.singleton_append, hafter] at hgrown
    obtain ⟨t', ht', hmarked'⟩ := hgrown.getElem?_kept ht₀
    rw [ht', hmarked'.eq_of_markedAmbiguous]
  · refine ⟨s, hs, ?_, ?_, isScopedLate_of_marked hseparator hambiguous hpassed'⟩
    · rw [hpassed'.eq]
      exact (a.member_passedAmong _ s p met).symm
    · rw [hpassed'.eq]
      exact a.path_passedAmong _ s p met

end AllEdges

/-- Two views of one member that came into a class along two edges. The earlier one is ambiguous and
marked with the first scope of its path, which is the base if its name is plain. The later one is
marked with its base, unless the base had it with that mark, or it is hidden. -/
theorem scopes_of_shared_member (a : Atlas) (h : a.IsMergeable) {id : EntityId} {e : Entity}
    {c : ClassBody} (he : a.entity? id = some e) (hclass : e.class? = some c)
    {before between after : List BaseEdge} {first second : BaseEdge}
    (hbases : c.bases = before ++ first :: between ++ second :: after) {name : String} {i j : Nat}
    {t u : View} (ht : ((a.mergeAll.value.1.rosterOf id).under name)[i]? = some t)
    (hi : a.mergeAll.value.1.CameAlong e.separator c.roster before first name i)
    (hu : ((a.mergeAll.value.1.rosterOf id).under name)[j]? = some u)
    (hj : a.mergeAll.value.1.CameAlong e.separator c.roster (before ++ first :: between) second
      name j)
    (hmember : t.member = u.member) :
    let b := a.mergeAll.value.1
    let early := b.passage e.separator first
    let late := b.passage e.separator second
    (t.isAmbiguous = true ∧ t.firstScope e.separator <+: t.ambiguityScope.toList ∧
      (early.IsPlain → early.scope <+: t.ambiguityScope.toList)) ∧
      ∃ s ∈ (b.rosterOf second.target).under name, s.member = u.member ∧ u.path = late.path s ∧
        b.IsScopedLate late s u := by
  intro b early late
  have hseparator : e.separator ≠ "" := by
    have hread := a.separator_ne_empty id
    rw [separator, he] at hread
    exact hread
  rw [rosterOf_mergeAll h he hclass, hbases] at ht hu
  -- The earlier view, as it was when the second edge came.
  have hgrown := b.takenOver_append_grown e.separator c.roster (before ++ first :: between)
    (second :: after) name
  have hplace : i < ((b.takenOver e.separator c.roster (before ++ first :: between)).1.under
      name).length := by
    have hlength := (b.takenOver_append_grown e.separator c.roster (before ++ [first]) between
      name).length_le
    rw [List.append_assoc] at hlength
    exact Nat.lt_of_lt_of_le hi.2 hlength
  obtain ⟨t', ht', hmarked⟩ := hgrown.getElem?_kept (List.getElem?_eq_getElem hplace)
  obtain rfl : t' = t := Option.some.inj (ht'.symm.trans ht)
  have hmember' := hmember
  rw [hmarked.eq] at hmember'
  obtain ⟨hfinal, hlate⟩ := hj.shared hseparator hu (List.getElem?_eq_getElem hplace) hmember'
  refine ⟨?_, hlate⟩
  rw [List.append_assoc] at ht
  obtain ⟨s, hpath⟩ := hi.exists_path ht
  have hscope : t'.firstScope e.separator <+: t'.ambiguityScope.toList := by
    rw [hmarked.firstScope_eq, Option.some.inj (ht'.symm.trans hfinal)]
    exact View.firstScope_prefix_markedAmbiguous _ _
  have hne : t'.firstScope early.separator ≠ [] := Passage.firstScope_ne_nil hpath hseparator
  refine ⟨View.isAmbiguous_of_infix hscope.isInfix hne, hscope, fun hplain => ?_⟩
  rw [← hplain.firstScope_eq hpath]
  exact hscope

/-- The views in two places under a name are of one member, and came into a class along its first
and along its second edge. -/
def IsForked (a : Atlas) (id : EntityId) (name : String) (first second : BaseEdge) (i j : Nat)
    (t u : View) : Prop :=
  let b := a.mergeAll.value.1
  a.bases id = [first, second] ∧ t.member = u.member ∧
    (((b.rosterOf id).under name)[i]? = some t ∧
      b.CameAlong (a.separator id) (a.rosterOf id) [] first name i) ∧
    ((b.rosterOf id).under name)[j]? = some u ∧
      b.CameAlong (a.separator id) (a.rosterOf id) [first] second name j

instance (a : Atlas) (id : EntityId) (name : String) (first second : BaseEdge) (i j : Nat)
    (t u : View) : Decidable (a.IsForked id name first second i j t u) :=
  inferInstanceAs (Decidable (_ ∧ _))

/-- The function that the last class of the diamond does not hide comes into it twice, and is marked
with either base. -/
theorem scopes_of_shared_member_diamond :
    diamond.IsMergeable ∧
      ∃ t u, diamond.IsForked ⟨4⟩ "g" { target := ⟨2⟩ } { target := ⟨3⟩ } 0 1 t u ∧
        t.isAmbiguous = true ∧ "Left::".toList <+: t.ambiguityScope.toList ∧
        u.isAmbiguous = true ∧ "Right::".toList <+: u.ambiguityScope.toList := by
  have h : diamond.IsMergeable :=
    .of_earlier (by decide +kernel) (by decide +kernel) (by decide +kernel) (by decide +kernel)
  have hviews : ∃ t ∈ (diamond.mergeAll.value.1.rosterOf ⟨4⟩).under "g",
      ∃ u ∈ (diamond.mergeAll.value.1.rosterOf ⟨4⟩).under "g",
        diamond.IsForked ⟨4⟩ "g" { target := ⟨2⟩ } { target := ⟨3⟩ } 0 1 t u ∧
        u.ambiguousWith = none := by
    decide +kernel
  have hunmarked : ∀ s ∈ (diamond.mergeAll.value.1.rosterOf ⟨3⟩).under "g",
      s.ambiguityScope = "" := by
    decide +kernel
  obtain ⟨t, -, u, -, hforked, hvisible⟩ := hviews
  refine ⟨h, t, u, hforked, ?_⟩
  obtain ⟨hedges, hmember, ⟨ht, hfirst⟩, hu, hsecond⟩ := hforked
  obtain ⟨c, hc⟩ := Option.isSome_iff_exists.mp
    (show (diamond.class? ⟨4⟩).isSome = true by decide +kernel)
  obtain ⟨e, he, hclass⟩ := (diamond.class?_eq_some_iff ⟨4⟩ c).mp hc
  have hseparator : diamond.separator ⟨4⟩ = e.separator := by rw [separator, he]; rfl
  have hown : diamond.rosterOf ⟨4⟩ = c.roster := by rw [rosterOf, roster?, hc]; rfl
  have hbases : c.bases = [] ++ { target := ⟨2⟩ } :: [] ++ { target := ⟨3⟩ } :: [] := by
    rw [bases, hc, Option.map_some] at hedges
    exact hedges
  rw [hseparator, hown] at hfirst hsecond
  obtain ⟨⟨hambiguous, -, hplain⟩, s, hs, -, -, hlate⟩ :=
    scopes_of_shared_member diamond h he hclass hbases ht hfirst hu hsecond hmember
  have hleft : (diamond.mergeAll.value.1.passage (diamond.separator ⟨4⟩)
      { target := ⟨2⟩ }).scope = "Left::".toList := by
    decide +kernel
  have hright : (diamond.mergeAll.value.1.passage (diamond.separator ⟨4⟩)
      { target := ⟨3⟩ }).scope = "Right::".toList := by
    decide +kernel
  rw [← hseparator] at hplain hlate
  refine ⟨hambiguous, hleft ▸ hplain (by decide +kernel), ?_⟩
  cases hlate with
  | marked _ _ isAmbiguous isScoped => exact ⟨isAmbiguous, hright ▸ isScoped⟩
  | repeated _ isOld _ =>
    rw [hunmarked s hs, hright] at isOld
    exact absurd isOld (by decide)
  | hidden hider isHidden _ _ _ _ =>
    rw [hvisible] at isHidden
    cases isHidden

/-- Two classes with a separator in their names, derived from one, and a class derived from both. -/
def qualified : Atlas :=
  let a := (((empty {}).naming "A").naming "ns::B").naming "ns::C"
  let a := (a.naming "D").declaring ⟨1⟩ "m" "()"
  let a := (a.linkBase ⟨2⟩ { target := ⟨1⟩ }).value
  let a := (a.linkBase ⟨3⟩ { target := ⟨1⟩ }).value
  let a := (a.linkBase ⟨4⟩ { target := ⟨2⟩ }).value
  (a.linkBase ⟨4⟩ { target := ⟨3⟩ }).value

/-- A class that is derived twice from one, through classes whose names begin with its own, and a
class derived from it. -/
def nested : Atlas :=
  let a := (((empty {}).naming "A").naming "B::P").naming "B::Q"
  let a := (((a.naming "B").naming "C").naming "D").declaring ⟨1⟩ "m" "()"
  let a := (a.linkBase ⟨2⟩ { target := ⟨1⟩ }).value
  let a := (a.linkBase ⟨3⟩ { target := ⟨1⟩ }).value
  let a := (a.linkBase ⟨4⟩ { target := ⟨2⟩ }).value
  let a := (a.linkBase ⟨4⟩ { target := ⟨3⟩ }).value
  let a := (a.linkBase ⟨5⟩ { target := ⟨1⟩ }).value
  let a := (a.linkBase ⟨6⟩ { target := ⟨5⟩ }).value
  (a.linkBase ⟨6⟩ { target := ⟨4⟩ }).value

/-- Four classes, the last of which is derived from the first in two ways, and hides a function of it
that one of the two classes in between hides as well. -/
def overshadowed : Atlas :=
  let a := (((empty {}).naming "A").naming "B").naming "C"
  let a := (a.naming "D").declaring ⟨1⟩ "f" "(int x)"
  let a := (a.declaring ⟨3⟩ "f" "(double x)").declaring ⟨4⟩ "f" "(char x)"
  let a := (a.linkBase ⟨2⟩ { target := ⟨1⟩ }).value
  let a := (a.linkBase ⟨3⟩ { target := ⟨1⟩ }).value
  let a := (a.linkBase ⟨4⟩ { target := ⟨2⟩ }).value
  (a.linkBase ⟨4⟩ { target := ⟨3⟩ }).value

/-- Three ways in which a view of a member that a class reaches twice is not marked with the base it
came through: with less than the name of the base, not at all, with another class. -/
theorem scope_is_not_the_base :
    (qualified.IsMergeable ∧ ∃ t ∈ (qualified.mergeAll.value.1.rosterOf ⟨4⟩).under "m",
      ∃ u ∈ (qualified.mergeAll.value.1.rosterOf ⟨4⟩).under "m",
        qualified.IsForked ⟨4⟩ "m" { target := ⟨2⟩ } { target := ⟨3⟩ } 0 1 t u ∧
        t.ambiguityScope = "ns::" ∧ ¬ "ns::B::".toList <+: t.ambiguityScope.toList) ∧
    (nested.IsMergeable ∧ ∃ t ∈ (nested.mergeAll.value.1.rosterOf ⟨6⟩).under "m",
      ∃ u ∈ (nested.mergeAll.value.1.rosterOf ⟨6⟩).under "m",
        nested.IsForked ⟨6⟩ "m" { target := ⟨5⟩ } { target := ⟨4⟩ } 0 2 t u ∧
        u.isAmbiguous = false) ∧
    (overshadowed.IsMergeable ∧ ∃ t ∈ (overshadowed.mergeAll.value.1.rosterOf ⟨4⟩).under "f",
      ∃ u ∈ (overshadowed.mergeAll.value.1.rosterOf ⟨4⟩).under "f",
        overshadowed.IsForked ⟨4⟩ "f" { target := ⟨2⟩ } { target := ⟨3⟩ } 1 3 t u ∧
        u.ambiguityScope = "A::" ∧ ¬ "C::".toList <+: u.ambiguityScope.toList) := by
  refine ⟨⟨.of_earlier ?_ ?_ ?_ ?_, ?_⟩, ⟨.of_earlier ?_ ?_ ?_ ?_, ?_⟩,
    .of_earlier ?_ ?_ ?_ ?_, ?_⟩ <;> decide +kernel

end Atlas

end SymbolAtlas
