import SymbolAtlas.Proofs.Atlas.Rosters
import SymbolAtlas.Proofs.Inheritance.Protection

/-!
# Inlined members

While the views of the bases come into a class, the members that are to be inlined are noted beside
the roster, and they are filed in the class when all edges are through. What has been noted then is
what the roster shows: the members of its inherited views, at the protections of these. So after
merging, the sections of a class hold what they held, and what its roster says is inherited.
-/

set_option autoImplicit false

namespace SymbolAtlas

namespace Atlas

variable {a b : Atlas}

/-! ## All classes -/

/-- Each entity is as it was, or has been merged. -/
structure MergesOnce (a b : Atlas) : Prop where
  resembles : b.Resembles a
  entity : ∀ id, b.entity? id = a.entity? id ∨
    ∃ c : Atlas, c.Resembles a ∧ b.entity? id = (a.entity? id).map (·.mergedIn c)

theorem mergesOnce_mergeAll (a : Atlas) : a.MergesOnce a.mergeAll.value.1 := by
  refine mergeAll_induction (fun b u hb => ?_) ⟨.refl a, fun id => .inl rfl⟩
  refine ⟨(b.resembles_mergeOne u).trans hb.resembles, fun id => ?_⟩
  rw [value_mergeOne]
  split
  · next hu =>
    rw [entity?_modifyEntity]
    by_cases hslot : u.slot = id.slot
    · rw [if_pos hslot]
      rcases hb.entity id with horiginal | ⟨c, -, hmerged⟩
      · exact .inr ⟨b.setAside u, (b.resembles_setAside u).trans hb.resembles, by rw [horiginal]⟩
      · rw [isUnmerged_congr (b.entity?_eq_of_slot hslot), isUnmerged_of_mergedIn hmerged] at hu
        cases hu
    · rw [if_neg hslot]
      exact hb.entity id
  · exact hb.entity id

theorem MergesOnce.eq_or_merged (h : a.MergesOnce b) (id : EntityId) :
    b.entity? id = a.entity? id ∨ ∃ (c : Atlas) (e : Entity) (body : ClassBody), c.Resembles a ∧
      a.entity? id = some e ∧ e.class? = some body ∧ b.entity? id = some (e.mergedIn c) := by
  rcases h.entity id with horiginal | ⟨c, hresembles, hmerged⟩
  · exact .inl horiginal
  · cases he : a.entity? id with
    | none =>
      rw [he] at hmerged
      exact .inl hmerged
    | some e =>
      rw [he] at hmerged
      cases hclass : e.class? with
      | none => exact .inl (e.mergedIn_of_class?_eq_none hclass c ▸ hmerged)
      | some body => exact .inr ⟨c, e, body, hresembles, rfl, hclass, hmerged⟩

/-! ## Sections and rosters -/

/-- The roster has an inherited view of the member, which is not a standard one, and at the
protection of the view the member goes into the section. -/
def InheritsInto (a : Atlas) (roster : Roster) (s : Section) (m : MemberId) : Prop :=
  ∃ v ∈ roster.views, v.isInherited = true ∧ v.member = m ∧
    ∃ member placement, a.member? m = some member ∧ member.isStandard = false ∧
      Placement.ofMember? member v.protection a.options = some placement ∧ placement.Names s

theorem Upholds.isInherited_eq_false (h : a.Upholds .unmerged) {id : EntityId} {name : String}
    {v : View} (hv : v ∈ (a.rosterOf id).under name) : v.isInherited = false := by
  obtain ⟨-, -, -, -, -, hown⟩ := h.lists_rosterOf id name v hv
  exact hown rfl

theorem mem_noted_takenOver {own : Roster}
    (hown : ∀ name, ∀ v ∈ own.under name, v.isInherited = false) (separator : String)
    (edges : List BaseEdge) (entry : MemberId × Protection) :
    entry ∈ (a.takenOver separator own edges).2 ↔
      a.isInlinable entry = true ∧ (a.takenOver separator own edges).1.Shows entry := by
  have hnone : ¬own.Shows entry := by
    rintro ⟨name, hentry⟩
    obtain ⟨v, hv, hinherited, -⟩ := View.mem_inheritedOf.mp hentry
    rw [hown name v hv] at hinherited
    cases hinherited
  rw [← a.reflects_takenOver separator own edges entry]
  exact (or_iff_left fun h => hnone h.2).symm

/-- The sections of a merged class: its own entries and those it inherits. -/
theorem mem_sections_mergedIn {e : Entity} {c : ClassBody} (hclass : e.class? = some c)
    (hresembles : b.Resembles a)
    (hown : ∀ name, ∀ v ∈ c.roster.under name, v.isInherited = false) {slot : Nat}
    (hlisted : b.Lists .reached slot (b.takenOver e.separator c.roster c.bases).1)
    {s : Section} {m : MemberId} :
    m ∈ (e.mergedIn b).sections.get s ↔ m ∈ e.sections.get s ∨
      a.options.inlineInheritedMember = true ∧
        a.InheritsInto (b.takenOver e.separator c.roster c.bases).1 s m := by
  rw [Entity.mergedIn_of_class?_eq_some hclass, Entity.mem_sections_foldl_inlining,
    Entity.sections_modifyClass]
  refine or_congr_right ?_
  unfold FilesUnder InheritsInto
  rw [hresembles.options]
  constructor
  · rintro ⟨entry, hentry, ⟨member, placement, hm, -, hplacement, hnames⟩, rfl⟩
    obtain ⟨hinlinable, name, hshown⟩ := (mem_noted_takenOver hown _ _ entry).mp hentry
    obtain ⟨v, hv, hinherited, hmember, hprotection⟩ := View.mem_inheritedOf.mp hshown
    unfold isInlinable at hinlinable
    rw [hm, hresembles.options, Bool.and_eq_true] at hinlinable
    refine ⟨hinlinable.1, v, Roster.mem_views_iff.mpr ⟨name, hv⟩, hinherited, hmember, member,
      placement, hresembles.member? _ ▸ hm, by simpa using hinlinable.2, ?_, hnames⟩
    rwa [hprotection]
  · rintro ⟨hinline, v, hv, hinherited, rfl, member, placement, hm, hstandard, hplacement, hnames⟩
    obtain ⟨name, hv⟩ := Roster.mem_views_iff.mp hv
    obtain ⟨member', hm', -, hhidden, -⟩ := hlisted name v hv
    have heq := hresembles.member? v.member
    rw [hm, hm'] at heq
    obtain rfl := Option.some.inj heq
    refine ⟨(v.member, v.protection), (mem_noted_takenOver hown _ _ _).mpr ⟨?_, name, ?_⟩,
      ⟨member', placement, hm', hhidden, hplacement, hnames⟩, rfl⟩
    · unfold isInlinable
      rw [hresembles.options, hinline, hm', Option.any_some, hstandard]
      rfl
    · exact View.mem_inheritedOf.mpr ⟨v, hv, hinherited, rfl, rfl⟩

variable {id : EntityId} {s : Section} {m : MemberId}

theorem mem_sectionMembers_mergeAll (hreached : a.Upholds .reached) (hown : a.Upholds .unmerged) :
    m ∈ a.mergeAll.value.1.sectionMembers id s ↔ m ∈ a.sectionMembers id s ∨
      a.options.inlineInheritedMember = true ∧
        a.InheritsInto (a.mergeAll.value.1.rosterOf id) s m := by
  have honce := a.mergesOnce_mergeAll
  rcases honce.eq_or_merged id with horiginal | ⟨c, e, body, hresembles, he, hclass, hmerged⟩
  · have hroster : a.mergeAll.value.1.rosterOf id = a.rosterOf id := by
      unfold rosterOf roster? class?
      rw [horiginal]
    have hnone : ¬a.InheritsInto (a.mergeAll.value.1.rosterOf id) s m := by
      rintro ⟨v, hv, hinherited, -⟩
      rw [hroster] at hv
      obtain ⟨name, hv⟩ := Roster.mem_views_iff.mp hv
      rw [hown.isInherited_eq_false hv] at hinherited
      cases hinherited
    rw [sectionMembers, horiginal]
    exact (or_iff_left fun h => hnone h.2).symm
  · have hroster := rosterOf_of_mergedIn hmerged hclass
    have hmergedReached : a.mergeAll.value.1.Upholds .reached :=
      mergeAll_induction (P := fun b => b.Upholds .reached)
        (fun _ u hb => hb.mergeOne (fun _ => trivial) u) hreached
    have hlisted := (hmergedReached.lists_rosterOf id).mono
      (carries_of_eq (hresembles.members.trans honce.resembles.members.symm))
    rw [hroster] at hlisted ⊢
    rw [sectionMembers, sectionMembers, hmerged, he]
    refine mem_sections_mergedIn hclass hresembles (fun name v hv => ?_) hlisted
    rw [← rosterOf_of_class? he hclass] at hv
    exact hown.isInherited_eq_false hv

theorem sections_mergeAll (hinline : a.options.inlineInheritedMember = false) (id : EntityId) :
    (a.mergeAll.value.1.entity? id).map (·.sections) = (a.entity? id).map (·.sections) := by
  rcases a.mergesOnce_mergeAll.eq_or_merged id with
    horiginal | ⟨c, e, body, hresembles, he, hclass, hmerged⟩
  · rw [horiginal]
  · have hnone : (c.takenOver e.separator body.roster body.bases).2 = [] := by
      refine List.eq_nil_iff_forall_not_mem.mpr fun entry hentry => ?_
      obtain ⟨hinlinable, -⟩ := (c.reflects_takenOver _ _ _ entry).mp (.inl hentry)
      unfold isInlinable at hinlinable
      rw [hresembles.options, hinline] at hinlinable
      cases hinlinable
    rw [hmerged, he, Option.map_some, Option.map_some, Entity.mergedIn_of_class?_eq_some hclass,
      hnone, List.foldl_nil, Entity.sections_modifyClass]

theorem nodup_sectionMembers_mergeAll (h : (a.sectionMembers id s).Nodup) :
    (a.mergeAll.value.1.sectionMembers id s).Nodup := by
  rcases a.mergesOnce_mergeAll.eq_or_merged id with horiginal | ⟨c, e, body, -, he, hclass, hmerged⟩
  · rwa [sectionMembers, horiginal]
  · rw [sectionMembers, he] at h
    rw [sectionMembers, hmerged, Option.map_some, Entity.mergedIn_of_class?_eq_some hclass]
    refine Entity.nodup_sections_foldl_inlining ?_ _
    rwa [Entity.sections_modifyClass]

end Atlas

/-! ## Every atlas that operations lead to -/

namespace Operation

/-- Operations have led to an atlas in which no class is merged, and then all classes are merged.
Where inherited members are inlined, a section holds what it held, and the members that the roster of
the class says are inherited and that go there; where they are not, sections stay as they are. Either
way no section comes to hold a member twice. -/
theorem inlining_agrees_with_rosters (options : Options) (operations : List Operation)
    (hkeeps : ∀ operation ∈ operations, operation.KeepsRosters)
    (hfresh : (performAll (.empty options) operations).IsFresh) :
    let a := performAll (.empty options) operations
    let merged := a.mergeAll.value.1
    a.options = options ∧
    (options.inlineInheritedMember = true → ∀ id s m,
      m ∈ merged.sectionMembers id s ↔
        m ∈ a.sectionMembers id s ∨ a.InheritsInto (merged.rosterOf id) s m) ∧
    (options.inlineInheritedMember = false → ∀ id,
      (merged.entity? id).map (·.sections) = (a.entity? id).map (·.sections)) ∧
    ∀ id s, (a.sectionMembers id s).Nodup → (merged.sectionMembers id s).Nodup := by
  intro a merged
  have hchanges : Atlas.Changes false (.empty options) a :=
    changes_performAll operations (.empty options) nofun
  have hoptions : a.options = options := hchanges.options
  obtain ⟨hreached, hunmerged⟩ := upholds_performAll options hkeeps
  refine ⟨hoptions, fun hinline id s m => ?_, fun hinline id => ?_, fun id s hnodup => ?_⟩
  · rw [Atlas.mem_sectionMembers_mergeAll hreached (hunmerged hfresh), hoptions,
      and_iff_right hinline]
  · exact Atlas.sections_mergeAll (hoptions.symm ▸ hinline) id
  · exact Atlas.nodup_sectionMembers_mergeAll hnodup

/-- A base with a method and a constructor, and a class derived from it. -/
def worker : List Operation :=
  [.register "Base" .classKind {}, .register "Worker" .classKind {},
    .addMember (some ⟨1⟩) { name := "run", kind := .function }, .insertMember ⟨1⟩ ⟨1⟩,
    .addMember (some ⟨1⟩) { name := "Base", kind := .function }, .insertMember ⟨1⟩ ⟨2⟩,
    .insertBase 2 1 { target := ⟨1⟩ }]

/-- The method goes into a section of the derived class, and the constructor does not. -/
theorem inlining_agrees_with_rosters_worker :
    let a := performAll (.empty { inlineInheritedMember := true }) worker
    let merged := a.mergeAll.value.1
    (∀ operation ∈ worker, operation.KeepsRosters) ∧ a.IsFresh ∧
      (∀ id s m, m ∈ merged.sectionMembers id s ↔
        m ∈ a.sectionMembers id s ∨ a.InheritsInto (merged.rosterOf id) s m) ∧
      merged.sectionMembers ⟨2⟩ (.methods .pub) = [⟨1⟩] := by
  have hkeeps : ∀ operation ∈ worker, operation.KeepsRosters := by
    simp [worker, KeepsRosters]
  have hfresh : (performAll (.empty { inlineInheritedMember := true }) worker).IsFresh := by
    decide +kernel
  have hagrees := inlining_agrees_with_rosters { inlineInheritedMember := true } worker hkeeps hfresh
  exact ⟨hkeeps, hfresh, hagrees.2.1 rfl, by decide +kernel⟩

end Operation

end SymbolAtlas
