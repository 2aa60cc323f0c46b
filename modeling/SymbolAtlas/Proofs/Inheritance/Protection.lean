import SymbolAtlas.Proofs.Inheritance.Recursion

/-!
# What remains of a protection

A member that is inherited along an edge ought to keep what was left of its protection in the base,
narrowed by the edge. That is so where the derived class had no member of the name before; where it
had one, the protection with which the member is declared is narrowed by the last edge alone.
-/

set_option autoImplicit false

namespace SymbolAtlas

theorem Roster.mem_views_iff {roster : Roster} {v : View} :
    v ∈ roster.views ↔ ∃ name, v ∈ roster.under name := by
  unfold views under
  rw [List.mem_flatten]
  constructor
  · rintro ⟨views, hviews, hv⟩
    obtain ⟨name, hget⟩ := (Dict.mem_values_iff _ _).mp hviews
    refine ⟨name, ?_⟩
    rw [hget]
    exact hv
  · rintro ⟨name, hv⟩
    cases hget : roster.get? name with
    | none => simp [hget] at hv
    | some views =>
      rw [hget] at hv
      exact ⟨views, (Dict.mem_values_iff _ _).mpr ⟨name, hget⟩, hv⟩

namespace Atlas

/-- No class lists a member that it does not declare. -/
def ListsOwnOnly (a : Atlas) : Prop :=
  ∀ e ∈ a.entities, (e.class?.all fun c => c.roster.views.all fun v => !v.isInherited) = true

instance (a : Atlas) : Decidable a.ListsOwnOnly :=
  inferInstanceAs (Decidable (∀ e ∈ a.entities,
    (e.class?.all fun c => c.roster.views.all fun v => !v.isInherited) = true))

theorem ListsOwnOnly.isInherited {a : Atlas} (h : a.ListsOwnOnly) {id : EntityId} {e : Entity}
    {c : ClassBody} (he : a.entity? id = some e) (hclass : e.class? = some c) {name : String}
    {v : View} (hv : v ∈ c.roster.under name) : v.isInherited = false := by
  have hall := h e (Array.mem_of_getElem? he)
  rw [hclass, Option.all_some, List.all_eq_true] at hall
  simpa using hall v (Roster.mem_views_iff.mpr ⟨name, hv⟩)

/-- An inherited view came along an edge from a view of the base. Its protection is what the edge
leaves of the protection in the base, if the class did not have the name before that edge, or if the
edge leaves the same of the declared protection; in no other case. -/
theorem protection_of_inherited (a : Atlas) (h : a.IsMergeable) (hown : a.ListsOwnOnly)
    {id : EntityId} {e : Entity} {c : ClassBody} (he : a.entity? id = some e)
    (hclass : e.class? = some c) {name : String} {t : View}
    (ht : t ∈ (a.mergeAll.value.1.rosterOf id).under name) (hinherited : t.isInherited = true) :
    let b := a.mergeAll.value.1
    ∃ before edge after s m, c.bases = before ++ edge :: after ∧
      s ∈ (b.rosterOf edge.target).under name ∧ b.member? t.member = some m ∧
      t.member = s.member ∧ t.path = b.name edge.target ++ e.separator ++ s.path ∧
      let isPresent := (b.takenOver e.separator c.roster before).1.contains name
      t.protection = (if isPresent then m.protection else s.protection).cappedBy edge.protection ∧
      (t.protection = s.protection.cappedBy edge.protection ↔
        isPresent = false ∨
          m.protection.cappedBy edge.protection = s.protection.cappedBy edge.protection) := by
  intro b
  have hsolves : b = a.mergedFrom b := mergeAll_mergeEach_eq_mergedFrom h []
  obtain ⟨c', hc', -, hroster⟩ := class?_of_eq_mergedFrom hsolves he hclass
  have hrosterOf : b.rosterOf id = (b.takenOver e.separator c.roster c.bases).1 := by
    rw [← hroster, rosterOf, roster?, hc']
    rfl
  rw [hrosterOf] at ht
  have hgrown := b.takenOver_grown e.separator c.roster c.bases name
  rcases hgrown.mem ht with ⟨v, hv, hmarked⟩ | harrived
  · -- The view is one of the class itself, which was not inherited.
    rw [hmarked.eq] at hinherited
    have hdirect := hown.isInherited he hclass hv
    rw [hinherited] at hdirect
    cases hdirect
  · obtain ⟨before, edge, after, heq, s, hs, harrival⟩ := harrived
    obtain ⟨m, hm, -, hprotection⟩ := harrival.source
    refine ⟨before, edge, after, s, m, heq, hs, ?_, harrival.member, harrival.path, hprotection, ?_⟩
    · rw [harrival.member]
      exact hm
    · rw [hprotection]
      cases (b.takenOver e.separator c.roster before).1.contains name with
      | false => simp [passage]
      | true => simp [passage]

/-- A class with a function, a class derived from it along a protected edge, and one derived from
that along a public edge, which declares another function of the name. -/
def narrowed : Atlas :=
  let a := (((empty {}).naming "A").naming "B").naming "D"
  let a := (a.declaring ⟨1⟩ "f" "(int x)").declaring ⟨3⟩ "f" "(double x)"
  let a := (a.linkBase ⟨2⟩ { target := ⟨1⟩, protection := .prot }).value
  (a.linkBase ⟨3⟩ { target := ⟨2⟩ }).value

theorem isMergeable_narrowed : narrowed.IsMergeable :=
  .of_earlier (by decide +kernel) (by decide +kernel) (by decide +kernel) (by decide +kernel)

theorem listsOwnOnly_narrowed : narrowed.ListsOwnOnly := by
  decide +kernel

/-- The function that the last class inherits has its declared protection along the last edge, or
the one that the class in between gives it. -/
theorem protection_of_inherited_narrowed :
    narrowed.IsMergeable ∧ narrowed.ListsOwnOnly ∧
      ∃ t ∈ (narrowed.mergeAll.value.1.rosterOf ⟨3⟩).under "f", t.isInherited = true ∧
        ∃ edge ∈ narrowed.bases ⟨3⟩,
          ∃ s ∈ (narrowed.mergeAll.value.1.rosterOf edge.target).under "f", ∃ m,
            narrowed.mergeAll.value.1.member? t.member = some m ∧ t.member = s.member ∧
            t.path = narrowed.mergeAll.value.1.name edge.target ++ "::" ++ s.path ∧
            (t.protection = m.protection.cappedBy edge.protection ∨
              t.protection = s.protection.cappedBy edge.protection) := by
  have hviews : ∃ t ∈ (narrowed.mergeAll.value.1.rosterOf ⟨3⟩).under "f", t.isInherited = true := by
    decide +kernel
  obtain ⟨t, ht, hinherited⟩ := hviews
  obtain ⟨c, hc⟩ := Option.isSome_iff_exists.mp
    (show (narrowed.class? ⟨3⟩).isSome = true by decide +kernel)
  obtain ⟨e, he, hclass⟩ := (narrowed.class?_eq_some_iff ⟨3⟩ c).mp hc
  have hseparator : e.separator = "::" := by
    have hread : narrowed.separator ⟨3⟩ = "::" := by decide +kernel
    rw [separator, he] at hread
    exact hread
  obtain ⟨before, edge, after, s, m, hbases, hs, hm, hmember, hpath, hprotection, -⟩ :=
    protection_of_inherited narrowed isMergeable_narrowed listsOwnOnly_narrowed he hclass ht
      hinherited
  refine ⟨isMergeable_narrowed, listsOwnOnly_narrowed, t, ht, hinherited, edge, ?_, s, hs, m, hm,
    hmember, ?_, ?_⟩
  · rw [bases, hc, Option.map_some, hbases]
    simp
  · rw [hpath, hseparator]
  · split at hprotection
    · exact .inl hprotection
    · exact .inr hprotection

/-- The function comes to the last class as a public one, although no edge leaves it public: the
class in between has it as a protected one. -/
theorem protection_widened_narrowed :
    narrowed.IsMergeable ∧ narrowed.ListsOwnOnly ∧
      ∃ t ∈ (narrowed.mergeAll.value.1.rosterOf ⟨3⟩).under "f", t.isInherited = true ∧
        ∀ edge ∈ narrowed.bases ⟨3⟩,
          ∀ s ∈ (narrowed.mergeAll.value.1.rosterOf edge.target).under "f",
            t.protection ≠ s.protection.cappedBy edge.protection := by
  refine ⟨isMergeable_narrowed, listsOwnOnly_narrowed, ?_⟩
  decide +kernel

end Atlas

end SymbolAtlas
