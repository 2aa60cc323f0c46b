import SymbolAtlas.Proofs.Inheritance.Protection
import SymbolAtlas.Proofs.Inheritance.Provenance
import SymbolAtlas.Proofs.Inheritance.Reception

/-!
# What private edges bring

While private members are left out, nothing that became private ought to be inherited. Where a class
has no member of a name, that is so: what an edge makes private is dropped. Where it has one, only
members that are declared private are dropped, and whatever comes along a private edge stays, as a
private view. Nothing else is ever inherited as a private view, cycles and bounds or not.
-/

set_option autoImplicit false

namespace SymbolAtlas.Atlas

variable {a b : Atlas} {t : View} {separator name : String} {id : EntityId}

/-! ## All edges -/

theorem under_ne_nil_of_contains_takenOver (a : Atlas) (separator : String) {own : Roster}
    (edges : List BaseEdge) (hown : own.contains name = false)
    (hcontains : (a.takenOver separator own edges).1.contains name = true) :
    (a.takenOver separator own edges).1.under name ≠ [] := by
  revert hcontains
  refine foldl_kept (P := fun state : Roster × Inlined =>
    state.1.contains name = true → state.1.under name ≠ []) (fun state edge hstate => ?_) edges ?_
  · intro hcontains hnil
    have hlength := (a.inheritFrom_grown separator state edge name).length_le
    rw [Dict.contains, get?_inheritFrom] at hcontains
    rw [under_inheritFrom] at hnil hlength
    unfold received? at hcontains
    rw [hnil] at hcontains hlength
    -- Without views, the name was there before, and then it had views.
    cases hget : state.1.get? name with
    | none => simp [hget] at hcontains
    | some present =>
      refine hstate (by rw [Dict.contains, hget]; rfl) ?_
      exact List.length_eq_zero_iff.mp (Nat.le_zero.mp hlength)
  · intro hcontains
    rw [hown] at hcontains
    cases hcontains

/-! ## All classes -/

/-- The view of a class came along an edge, from a view that the base has under the name. -/
def ComesAlong (a : Atlas) (id : EntityId) (name : String) (edge : BaseEdge) (t : View) : Prop :=
  t.isInherited = true ∧ ∃ s ∈ (a.rosterOf edge.target).under name,
    t.member = s.member ∧ t.path = a.name edge.target ++ a.separator id ++ s.path

/-- What `b`, which is `a` with some classes merged, says of an inherited view: it is private exactly
if the edge is along which it came, and then the class had the name itself or had got it along an
earlier edge. -/
def IsSifted (a b : Atlas) (id : EntityId) (name : String) (t : View) : Prop :=
  ∃ before edge after, a.bases id = before ++ edge :: after ∧ b.ComesAlong id name edge t ∧
    (t.protection = .priv ↔ edge.protection = .priv) ∧
    (edge.protection = .priv → (a.rosterOf id).contains name = true ∨
      ∃ earlier ∈ before, ∃ u ∈ (b.rosterOf id).under name, b.ComesAlong id name earlier u)

/-- The rosters of `c` are those of `b`, marked and with more behind. -/
def RostersGrow (b c : Atlas) : Prop :=
  ∀ id name, View.Grown (b.separator id) (fun _ => True) ((b.rosterOf id).under name)
    ((c.rosterOf id).under name)

theorem ComesAlong.mono {c : Atlas} (hresembles : c.Resembles b) (hgrow : RostersGrow b c)
    {edge : BaseEdge} {t' : View} (h : b.ComesAlong id name edge t)
    (hmarked : t.Marked separator t') : c.ComesAlong id name edge t' := by
  obtain ⟨hinherited, s, hs, hmember, hpath⟩ := h
  obtain ⟨s', hs', hmarked'⟩ := (hgrow edge.target name).exists_marked hs
  rw [hmarked.eq]
  refine ⟨hinherited, s', hs', ?_, ?_⟩
  · rw [hmarked'.eq]
    exact hmember
  · rw [hmarked'.eq, hresembles.name, hresembles.separator]
    exact hpath

theorem IsSifted.mono {c : Atlas} (hresembles : c.Resembles b) (hgrow : RostersGrow b c) {t' : View}
    (h : IsSifted a b id name t) (hmarked : t.Marked separator t') : IsSifted a c id name t' := by
  obtain ⟨before, edge, after, heq, halong, hprivate, hname⟩ := h
  refine ⟨before, edge, after, heq, halong.mono hresembles hgrow hmarked, ?_, fun hedge => ?_⟩
  · rw [hmarked.eq]
    exact hprivate
  · rcases hname hedge with hown | ⟨earlier, hearlier, u, hu, halong'⟩
    · exact .inl hown
    · obtain ⟨u', hu', hmarked'⟩ := (hgrow id name).exists_marked hu
      exact .inr ⟨earlier, hearlier, u', hu', halong'.mono hresembles hgrow hmarked'⟩

theorem rostersGrow_mergeOne (b : Atlas) (u : EntityId) : RostersGrow b (b.mergeOne u).value := by
  intro id name
  rcases (Resembles.refl b).rosterOf_mergeOne u id with hroster | ⟨-, -, hroster⟩
  · rw [hroster]
    exact .refl _ _ _
  · rw [hroster]
    exact ((b.setAside u).takenOver_grown _ _ _ name).mono fun _ _ => trivial

theorem ListsOwnOnly.under_rosterOf (h : a.ListsOwnOnly) {v : View}
    (hv : v ∈ (a.rosterOf id).under name) : v.isInherited = false := by
  cases hclass : a.class? id with
  | none => simp [rosterOf, roster?, hclass, Roster.under] at hv
  | some c =>
    obtain ⟨e, he, hbody⟩ := (a.class?_eq_some_iff id c).mp hclass
    rw [rosterOf_of_class? he hbody] at hv
    exact h.isInherited he hbody hv

theorem Arrival.comesAlong {u : EntityId} {edge : BaseEdge} {isPresent : Bool} {s : View}
    (h : (b.setAside u).Arrival ((b.setAside u).passage (b.separator id) edge) isPresent s t)
    (hs : s ∈ ((b.setAside u).rosterOf edge.target).under name) : b.ComesAlong id name edge t := by
  refine ⟨h.isInherited, s, under_rosterOf_setAside hs, h.member, ?_⟩
  rw [h.path, ← (b.resembles_setAside u).name]
  rfl

/-- The state of a merge: `b` is `a` with some classes merged. -/
structure Sifting (a b : Atlas) : Prop where
  resembles : b.Resembles a
  unmerged : ∀ id, b.isUnmerged id = true → b.rosterOf id = a.rosterOf id
  inherited : ∀ id name, ∀ t ∈ (b.rosterOf id).under name, t.isInherited = true →
    IsSifted a b id name t

theorem exists_earlier {own : Roster} {before : List BaseEdge} (hown : own.contains name = false)
    (hcontains : (a.takenOver separator own before).1.contains name = true)
    (later : List BaseEdge) :
    ∃ earlier ∈ before,
      ∃ v ∈ (a.takenOver separator own (before ++ later)).1.under name,
        ∃ isPresent, ∃ s ∈ (a.rosterOf earlier.target).under name,
          a.Arrival (a.passage separator earlier) isPresent s v := by
  have hne := a.under_ne_nil_of_contains_takenOver separator before hown hcontains
  obtain ⟨v, hv⟩ := List.exists_mem_of_ne_nil _ hne
  have hnil : own.under name = [] := by
    unfold Dict.contains at hown
    unfold Roster.under
    rw [Option.isSome_eq_false_iff, Option.isNone_iff_eq_none] at hown
    rw [hown, Option.getD_none]
  rcases (a.takenOver_grown separator own before name).mem hv with
    ⟨w, hw, -⟩ | ⟨first, earlier, last, rfl, s, hs, harrival⟩
  · rw [hnil] at hw
    exact absurd hw List.not_mem_nil
  · obtain ⟨v', hv', hmarked⟩ :=
      (a.takenOver_append_grown separator own _ later name).exists_marked hv
    exact ⟨earlier, by simp, v', hv', _, s, hs, harrival.marked hmarked⟩

/-- A view that a merge brings in is private exactly if its edge is. -/
theorem Sifting.isSifted (h : Sifting a b) (hown : a.ListsOwnOnly)
    (hextract : a.options.extractPrivate = false) {u : EntityId}
    (htaken : (b.mergeOne u).value.rosterOf id =
      ((b.setAside u).takenOver (b.separator id) (a.rosterOf id) (a.bases id)).1)
    (ht : t ∈ ((b.mergeOne u).value.rosterOf id).under name)
    (hinherited : t.isInherited = true) : IsSifted a (b.mergeOne u).value id name t := by
  have hresembles := b.resembles_mergeOne u
  have hgrow := b.rostersGrow_mergeOne u
  have hextract' : (b.setAside u).options.extractPrivate = false := by
    rw [((b.resembles_setAside u).trans h.resembles).options]
    exact hextract
  rw [htaken] at ht
  have hgrown := (b.setAside u).takenOver_grown (b.separator id) (a.rosterOf id) (a.bases id) name
  rcases hgrown.mem ht with ⟨v, hv, hmarked⟩ | ⟨before, edge, after, heq, s, hs, harrival⟩
  · rw [hmarked.eq, hown.under_rosterOf hv] at hinherited
    cases hinherited
  · have hsame : t.Marked "" t := .inl rfl
    obtain ⟨m, -, -, hprotection⟩ := harrival.source
    have hsifted := harrival.isPrivate hextract'
    have hprivate : edge.protection = .priv → t.protection = .priv := by
      intro hedge
      rw [hprotection]
      show Protection.cappedBy _ edge.protection = _
      rw [hedge]
      rfl
    refine ⟨before, edge, after, heq, ?_, ⟨fun ht => (hsifted ht).2, hprivate⟩, ?_⟩
    · exact (harrival.comesAlong hs).mono hresembles hgrow hsame
    · intro hedge
      have hpresent := (hsifted (hprivate hedge)).1
      cases hcontains : (a.rosterOf id).contains name with
      | true => exact .inl rfl
      | false =>
        obtain ⟨earlier, hearlier, v, hv, isPresent, s', hs', harrival⟩ :=
          exists_earlier hcontains hpresent (edge :: after)
        rw [← heq, ← htaken] at hv
        have hsame' : v.Marked "" v := .inl rfl
        exact .inr ⟨earlier, hearlier, v, hv,
          (harrival.comesAlong hs').mono hresembles hgrow hsame'⟩

theorem Sifting.mergeOne (h : Sifting a b) (hown : a.ListsOwnOnly)
    (hextract : a.options.extractPrivate = false) (u : EntityId) :
    Sifting a (b.mergeOne u).value := by
  refine ⟨(b.resembles_mergeOne u).trans h.resembles, fun id hid => ?_,
    fun id name t ht hinherited => ?_⟩
  · obtain ⟨hid, hslot⟩ := (b.isUnmerged_mergeOne u id).mp hid
    rcases h.resembles.rosterOf_mergeOne u id with hroster | ⟨-, hsame, -⟩
    · rw [hroster, h.unmerged id hid]
    · exact absurd hsame hslot
  · rcases h.resembles.rosterOf_mergeOne u id with hroster | ⟨hid, -, hroster⟩
    · have hsame : t.Marked "" t := .inl rfl
      rw [hroster] at ht
      exact (h.inherited id name t ht hinherited).mono (b.resembles_mergeOne u)
        (b.rostersGrow_mergeOne u) hsame
    · rw [h.unmerged id hid, ← h.resembles.separator] at hroster
      exact h.isSifted hown hextract hroster ht hinherited

theorem sifting_mergeAll (hown : a.ListsOwnOnly) (hextract : a.options.extractPrivate = false) :
    Sifting a a.mergeAll.value.1 := by
  have hstart : Sifting a a := by
    refine ⟨.refl a, fun _ _ => rfl, fun id name t ht hinherited => ?_⟩
    rw [hown.under_rosterOf ht] at hinherited
    cases hinherited
  exact mergeAll_induction (fun _ u hb => hb.mergeOne hown hextract u) hstart

/-- While private members are left out, an inherited view is private exactly if the edge is along
which it came, and no private edge brings a view under a name that the class neither has itself nor
gets along an edge before it. So a class without such an edge inherits no private view. -/
theorem private_of_inherited (a : Atlas) (hown : a.ListsOwnOnly)
    (hextract : a.options.extractPrivate = false) {id : EntityId} {name : String} {t : View}
    (ht : t ∈ (a.mergeAll.value.1.rosterOf id).under name) (hinherited : t.isInherited = true) :
    let b := a.mergeAll.value.1
    ∃ before edge after, a.bases id = before ++ edge :: after ∧ b.ComesAlong id name edge t ∧
      (t.protection = .priv ↔ edge.protection = .priv) ∧
      (edge.protection = .priv → (a.rosterOf id).contains name = true ∨
        ∃ earlier ∈ before, ∃ u ∈ (b.rosterOf id).under name, b.ComesAlong id name earlier u) :=
  (sifting_mergeAll hown hextract).inherited id name t ht hinherited

/-- A class with a function and another one derived from it along a private edge, which declares a
function of the same name with other parameters. -/
def confided : Atlas :=
  let a := ((empty {}).naming "Base").naming "Derived"
  let a := (a.declaring ⟨1⟩ "f" "(int x)").declaring ⟨2⟩ "f" "(double x)"
  (a.linkBase ⟨2⟩ { target := ⟨1⟩, protection := .priv }).value

/-- The private view of the derived class came along a private edge, under a name of its own. -/
theorem private_of_inherited_confided :
    confided.ListsOwnOnly ∧ confided.options.extractPrivate = false ∧
      ∃ t ∈ (confided.mergeAll.value.1.rosterOf ⟨2⟩).under "f", t.isInherited = true ∧
        t.protection = .priv ∧
        ∃ edge ∈ confided.bases ⟨2⟩, confided.mergeAll.value.1.ComesAlong ⟨2⟩ "f" edge t ∧
          edge.protection = .priv ∧ (confided.rosterOf ⟨2⟩).contains "f" = true := by
  have hown : confided.ListsOwnOnly := by decide +kernel
  have hextract : confided.options.extractPrivate = false := by decide +kernel
  have hview : ∃ t ∈ (confided.mergeAll.value.1.rosterOf ⟨2⟩).under "f",
      t.isInherited = true ∧ t.protection = .priv := by decide +kernel
  obtain ⟨t, ht, hinherited, hprivate⟩ := hview
  obtain ⟨before, edge, after, heq, halong, hiff, -⟩ :=
    private_of_inherited confided hown hextract ht hinherited
  refine ⟨hown, hextract, t, ht, hinherited, hprivate, edge, ?_, halong, hiff.mp hprivate,
    by decide +kernel⟩
  rw [heq]
  simp

/-- A private view is inherited, although private members are left out. -/
theorem private_view_inherited_confided :
    confided.IsFresh ∧ confided.ListsOwnOnly ∧ confided.options.extractPrivate = false ∧
      ∃ t ∈ (confided.mergeAll.value.1.rosterOf ⟨2⟩).under "f",
        t.isInherited = true ∧ t.protection = .priv := by
  decide +kernel

end SymbolAtlas.Atlas
