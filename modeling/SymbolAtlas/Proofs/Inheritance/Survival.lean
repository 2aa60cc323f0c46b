import SymbolAtlas.Proofs.Inheritance.Reception

/-!
# What reaches a derived class

A view of a base is left out of a derived class for four reasons: its member is a friend, it is
declared private, what remains of its protection is private, or the class has another view in its
place. That other view is of the same member, or of one with a compatible signature that a class
further down declares.
-/

set_option autoImplicit false

namespace SymbolAtlas.Atlas

variable {a : Atlas} {source : Member} {s : View} {separator : String} {passage : Passage}

/-- The owner of one member is that of another one, or a class derived from it. -/
def IsDeclaredBelow (a : Atlas) (present incoming : Member) : Prop :=
  present.owner = incoming.owner ∨
    ∃ derived base, present.owner = some derived ∧ incoming.owner = some base ∧
      (a.isBase derived base true).value = true

/-- A class that has the view `t` needs no view of the member `source` of `s`: it has one of that
member, or one of a member that overrides it. -/
def StandsFor (a : Atlas) (source : Member) (s t : View) : Prop :=
  t.member = s.member ∨
    ∃ target, a.member? t.member = some target ∧
      source.signature.isCompatible target.signature = true ∧ a.IsDeclaredBelow target source

theorem StandsFor.marked {t t' : View} (h : a.StandsFor source s t)
    (hmarked : t.Marked separator t') : a.StandsFor source s t' := by
  rw [hmarked.eq]
  exact h

theorem isDeclaredBelow_of_isOwnedBelow {present incoming : Member}
    (h : (a.isOwnedBelow present incoming).value = true) : a.IsDeclaredBelow present incoming := by
  unfold isOwnedBelow at h
  split at h
  · next howner => exact .inl howner.symm
  · split at h
    · next derived base hderived hbase => exact .inr ⟨derived, base, hderived, hbase, h⟩
    · cases h

/-! ## One view -/

theorem standsFor_of_meeting {t : View} {target : Member}
    (htarget : a.member? t.member = some target)
    (h : (a.meeting passage s source t target).value = .covered) : a.StandsFor source s t := by
  by_cases hmember : s.member = t.member
  · exact .inl hmember.symm
  · unfold meeting at h
    rw [if_pos hmember, Noted.value_bind] at h
    split at h
    · next hbelow =>
      refine .inr ⟨target, htarget, ?_, isDeclaredBelow_of_isOwnedBelow hbelow⟩
      by_cases hcompatible : source.signature.isCompatible target.signature = true
      · exact hcompatible
      · simp [hcompatible] at h
    · cases h

theorem exists_standsFor_of_covered (a : Atlas) (passage : Passage) (s : View) (source : Member)
    (present : List View) (h : (a.confront passage s source present).value.1.isCovered = true) :
    ∃ t ∈ (a.confront passage s source present).value.2, a.StandsFor source s t := by
  induction present with
  | nil => simp [confront] at h
  | cons view rest ih =>
    unfold confront at h ⊢
    cases hm : a.member? view.member with
    | none =>
      simp only [hm, Noted.value_bind, Noted.value_pure] at h ⊢
      obtain ⟨t, ht, hstands⟩ := ih h
      exact ⟨t, List.mem_cons_of_mem _ ht, hstands⟩
    | some target =>
      simp only [hm] at h ⊢
      rw [Noted.value_bind] at h ⊢
      cases hmeeting : (a.meeting passage s source view target).value with
      | covered => exact ⟨view, List.mem_cons_self, standsFor_of_meeting hm hmeeting⟩
      | hidden =>
        simp only [hmeeting, Noted.value_bind, Noted.value_pure] at h ⊢
        obtain ⟨t, ht, hstands⟩ := ih h
        exact ⟨t, List.mem_cons_of_mem _ ht, hstands⟩
      | ambiguous =>
        simp only [hmeeting, Noted.value_bind, Noted.value_pure] at h ⊢
        obtain ⟨t, ht, hstands⟩ := ih h
        exact ⟨t, List.mem_cons_of_mem _ ht, hstands⟩

/-- A view that comes in is there afterwards, or one in its place. -/
theorem exists_standsFor_receiveAmong (hsource : a.member? s.member = some source)
    (hprivate : source.protection ≠ .priv) (hfriend : source.flags.isFriend = false)
    (views : List View) : ∃ t ∈ a.receiveAmong passage views s, a.StandsFor source s t := by
  rcases a.receiveAmong_cases passage views s with ⟨hnone, -⟩ | ⟨source', hsource', hcases⟩
  · rw [hsource] at hnone
    cases hnone
  · obtain rfl : source = source' := Option.some.inj (hsource.symm.trans hsource')
    rcases hcases with ⟨hskip, hviews⟩ | ⟨-, -, -, hviews⟩
    · have hcovered : (a.confront passage s source views).value.1.isCovered = true := by
        rcases hskip with hcovered | hpriv | hfriend'
        · exact hcovered
        · exact absurd hpriv hprivate
        · rw [hfriend] at hfriend'
          cases hfriend'
      rw [hviews]
      exact a.exists_standsFor_of_covered passage s source views hcovered
    · rw [hviews]
      exact ⟨_, List.mem_append_right _ (List.mem_singleton.mpr rfl),
        .inl (a.member_passedAmong passage s _ _)⟩

theorem exists_standsFor_receiveNew (hsource : a.member? s.member = some source)
    (hfriend : source.flags.isFriend = false)
    (hprotection : s.protection.cappedBy passage.edge.protection ≠ .priv ∨
      a.options.extractPrivate = true) (views : List View) :
    ∃ t ∈ a.receiveNew passage views s, a.StandsFor source s t := by
  have hkeep : (s.protection.cappedBy passage.edge.protection == .priv &&
      !a.options.extractPrivate) = false := by
    rcases hprotection with hprotection | hextract
    · simp [hprotection]
    · simp [hextract]
  unfold receiveNew inheritNew
  rw [hsource]
  simp only [hfriend, hkeep, Bool.or_self, Bool.false_eq_true, if_false]
  exact ⟨_, List.mem_append_right _ (List.mem_singleton.mpr rfl), .inl rfl⟩

/-! ## One name, all edges -/

theorem exists_standsFor_foldl {R : View → View → Prop} {f : List View → View → List View}
    (hf : ∀ views s, View.Grown separator (R s) views (f views s))
    (hs : ∀ views, ∃ t ∈ f views s, a.StandsFor source s t) {incoming : List View}
    (hmem : s ∈ incoming) (views : List View) :
    ∃ t ∈ incoming.foldl f views, a.StandsFor source s t := by
  obtain ⟨earlier, later, rfl⟩ := List.append_of_mem hmem
  rw [List.foldl_append]
  obtain ⟨t, ht, hstands⟩ := hs (earlier.foldl f views)
  obtain ⟨t', ht', hmarked⟩ := (foldl_grown_any hf later _).exists_marked ht
  exact ⟨t', ht', hstands.marked hmarked⟩

theorem exists_standsFor_inheritFrom {edge : BaseEdge} {name : String}
    (hs : s ∈ (a.rosterOf edge.target).under name) (hsource : a.member? s.member = some source)
    (hprivate : source.protection ≠ .priv) (hfriend : source.flags.isFriend = false)
    (hprotection : s.protection.cappedBy edge.protection ≠ .priv ∨
      a.options.extractPrivate = true) (separator : String) (state : Roster × Inlined) :
    ∃ t ∈ (a.inheritFrom separator state edge).value.1.under name, a.StandsFor source s t := by
  rw [under_inheritFrom]
  cases state.1.get? name with
  | some views =>
    exact exists_standsFor_foldl (a.receiveAmong_grown _)
      (exists_standsFor_receiveAmong hsource hprivate hfriend) hs views
  | none =>
    exact exists_standsFor_foldl (a.receiveNew_grown _)
      (exists_standsFor_receiveNew hsource hfriend hprotection) hs []

theorem exists_standsFor_takenOver {own : Roster} {edges : List BaseEdge} {edge : BaseEdge}
    (hedge : edge ∈ edges) {name : String} (hs : s ∈ (a.rosterOf edge.target).under name)
    (hsource : a.member? s.member = some source) (hprivate : source.protection ≠ .priv)
    (hfriend : source.flags.isFriend = false)
    (hprotection : s.protection.cappedBy edge.protection ≠ .priv ∨
      a.options.extractPrivate = true) :
    ∃ t ∈ (a.takenOver separator own edges).1.under name, a.StandsFor source s t := by
  obtain ⟨earlier, later, rfl⟩ := List.append_of_mem hedge
  obtain ⟨t, ht, hstands⟩ := exists_standsFor_inheritFrom hs hsource hprivate hfriend
    hprotection separator (a.takenOver separator own earlier)
  rw [← takenOver_append] at ht
  have hgrown := a.takenOver_append_grown separator own (earlier ++ [edge]) later name
  rw [List.append_assoc] at hgrown
  obtain ⟨t', ht', hmarked⟩ := hgrown.exists_marked ht
  exact ⟨t', ht', hstands.marked hmarked⟩

/-- Nothing is lost in a merge but by friendship, by privacy or by an override: every other view
that a base ends with has a view in the derived class that stands for it. -/
theorem exists_standsFor_of_base (a : Atlas) (h : a.IsMergeable) {id : EntityId} {e : Entity}
    {c : ClassBody} (he : a.entity? id = some e) (hclass : e.class? = some c) {edge : BaseEdge}
    (hedge : edge ∈ c.bases) {name : String} {s : View}
    (hs : s ∈ (a.mergeAll.value.1.rosterOf edge.target).under name) {source : Member}
    (hsource : a.mergeAll.value.1.member? s.member = some source)
    (hfriend : source.flags.isFriend = false) (hprivate : source.protection ≠ .priv)
    (hprotection : s.protection.cappedBy edge.protection ≠ .priv ∨
      a.options.extractPrivate = true) :
    ∃ t ∈ (a.mergeAll.value.1.rosterOf id).under name,
      a.mergeAll.value.1.StandsFor source s t := by
  have hoptions : a.mergeAll.value.1.options = a.options := by
    rw [mergeAll_eq_mergedFrom h]
    rfl
  rw [rosterOf_mergeAll h he hclass]
  exact exists_standsFor_takenOver hedge hs hsource hprivate hfriend (hoptions.symm ▸ hprotection)

/-- Four classes, the last of which is derived from the first in two ways. One of the two classes in
between overrides the function that the first declares. -/
def crossed : Atlas :=
  let a := ((empty { maxInheritanceDepth := 3 }).naming "Top").naming "Left"
  let a := (a.naming "Right").naming "Bottom"
  let a := (a.declaring ⟨1⟩ "f" "(int x)").declaring ⟨3⟩ "f" "(int y)"
  let a := (a.linkBase ⟨2⟩ { target := ⟨1⟩ }).value
  let a := (a.linkBase ⟨3⟩ { target := ⟨1⟩ }).value
  let a := (a.linkBase ⟨4⟩ { target := ⟨3⟩ }).value
  (a.linkBase ⟨4⟩ { target := ⟨2⟩ }).value

/-- The function that the last class does not inherit along its second edge has the one that
overrides it, which came along the first edge, in its place. -/
theorem exists_standsFor_of_base_crossed :
    crossed.IsMergeable ∧
      ∃ s ∈ (crossed.mergeAll.value.1.rosterOf ⟨2⟩).under "f",
        (∀ t ∈ (crossed.mergeAll.value.1.rosterOf ⟨4⟩).under "f", t.member ≠ s.member) ∧
        ∃ source, crossed.mergeAll.value.1.member? s.member = some source ∧
          source.flags.isFriend = false ∧ source.protection ≠ .priv ∧ s.protection = .pub ∧
          ∃ t ∈ (crossed.mergeAll.value.1.rosterOf ⟨4⟩).under "f",
            crossed.mergeAll.value.1.StandsFor source s t := by
  have h : crossed.IsMergeable :=
    .of_earlier (by decide +kernel) (by decide +kernel) (by decide +kernel) (by decide +kernel)
  have hviews : ∃ s ∈ (crossed.mergeAll.value.1.rosterOf ⟨2⟩).under "f", s.protection = .pub ∧
      (∀ t ∈ (crossed.mergeAll.value.1.rosterOf ⟨4⟩).under "f", t.member ≠ s.member) ∧
      ((crossed.mergeAll.value.1.member? s.member).any fun m =>
        !m.flags.isFriend && m.protection == .pub) = true := by
    decide +kernel
  have hedges : (⟨⟨2⟩, none, .pub, .normal, ""⟩ : BaseEdge) ∈ crossed.bases ⟨4⟩ := by
    decide +kernel
  obtain ⟨s, hs, hprotection, hother, hmember⟩ := hviews
  obtain ⟨source, hsource, hflags⟩ := (Option.any_eq_true _ _).mp hmember
  simp only [Bool.and_eq_true, Bool.not_eq_true', beq_iff_eq] at hflags
  obtain ⟨c, hc⟩ := Option.isSome_iff_exists.mp
    (show (crossed.class? ⟨4⟩).isSome = true by decide +kernel)
  obtain ⟨e, he, hclass⟩ := (crossed.class?_eq_some_iff ⟨4⟩ c).mp hc
  have hprivate : source.protection ≠ .priv := by simp [hflags.2]
  refine ⟨h, s, hs, hother, source, hsource, hflags.1, hprivate, hprotection, ?_⟩
  rw [bases, hc, Option.map_some] at hedges
  exact exists_standsFor_of_base crossed h he hclass hedges hs hsource hflags.1 hprivate
    (.inl (by rw [hprotection]; decide))

end SymbolAtlas.Atlas
