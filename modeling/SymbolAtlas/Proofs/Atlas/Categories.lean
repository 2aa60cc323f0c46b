import Mathlib.Data.List.Nodup
import SymbolAtlas.Proofs.Atlas.Rosters

/-!
# Taking over a category

A class that takes over a category keeps what it lists, and lists in addition a copy of each view that
the category has under a name which the class does not have. The copies are new members of the class,
related to their originals in both directions, and filed in the sections where they belong. No other
entity notices.
-/

set_option autoImplicit false

namespace SymbolAtlas

namespace Atlas

variable {a b : Atlas}
variable {id category : EntityId}

/-- What becomes of an atlas when a class takes over a category. -/
structure TakesOver (a : Atlas) (id category : EntityId) (after : Atlas) : Prop where
  /-- The class has the names that it had, and those of the category. -/
  named : ∀ name, (after.rosterOf id).contains name = true ↔
    (a.rosterOf id).contains name = true ∨ (a.rosterOf category).contains name = true
  /-- What the class had under a name stays as it is. -/
  present : ∀ name views, (a.rosterOf id).get? name = some views →
    (after.rosterOf id).get? name = some views
  /-- Under a new name stand copies of what the category has, in the same order. -/
  copied : ∀ name views, (a.rosterOf category).get? name = some views →
    (a.rosterOf id).get? name = none → ∃ copies, (after.rosterOf id).get? name = some copies ∧
      List.Forall₂ (fun v w => a.IsCopy after id category v w ∧ after.IsRelated v w) views copies
  /-- The sections hold what they held, and the copies where these belong. -/
  filed : ∀ s m, m ∈ after.sectionMembers id s ↔ m ∈ a.sectionMembers id s ∨
    ∃ name copies w, (a.rosterOf id).get? name = none ∧
      (after.rosterOf id).get? name = some copies ∧ w ∈ copies ∧ w.member = m ∧
      after.FilesUnder (w.member, w.protection) s
  /-- Rosters and sections of other entities, the category among them, stay as they are. -/
  others : ∀ id', id'.slot ≠ id.slot → after.rosterOf id' = a.rosterOf id' ∧
    ∀ s, after.sectionMembers id' s = a.sectionMembers id' s

theorem rosterOf_eq_of_card (h : (b.entity? id).map Entity.card = (a.entity? id).map Entity.card) :
    b.rosterOf id = a.rosterOf id ∧ ∀ s, b.sectionMembers id s = a.sectionMembers id s := by
  have hroster (x : Atlas) : x.rosterOf id =
      ((((x.entity? id).map Entity.card).bind (·.1.2)).map (·.1)).getD .empty := by
    unfold rosterOf roster? class?
    cases x.entity? id with
    | none => rfl
    | some e => cases hclass : e.class? <;> simp [Entity.card, Entity.stamp, hclass]
  have hsections (x : Atlas) (s : Section) : x.sectionMembers id s =
      (((x.entity? id).map Entity.card).map (·.2.get s)).getD [] := by
    unfold sectionMembers
    cases x.entity? id <;> rfl
  exact ⟨by rw [hroster, hroster, h], fun s => by rw [hsections, hsections, h]⟩

/-! ## Members that are met once -/

/-- Views of one member stand under its name, so a member that stands once in a roster is nowhere
else in it, nor in a roster without the name. -/
theorem Upholds.apart (h : a.Upholds .reached) (id : EntityId)
    (hnodup : ((a.rosterOf category).views.map (·.member)).Nodup) :
    Apart (a.rosterOf id) (a.rosterOf category).toList := by
  intro name views hviews hnone
  have hget := (Dict.mem_toList_iff _ _ _).mp hviews
  have hlisted (v : View) (hv : v ∈ views) := h.lists_rosterOf category name v
    (by rwa [Roster.under, hget])
  refine ⟨?_, fun slot hslot => ?_⟩
  · have hsub : views.Sublist (a.rosterOf category).views :=
      List.sublist_flatten_of_mem ((Dict.mem_values_iff _ _).mpr ⟨name, hget⟩)
    have hslots : slots views = (views.map (·.member)).map (·.slot) := by
      rw [List.map_map]
      rfl
    rw [hslots]
    refine List.Nodup.map_on (fun m hm m' hm' heq => ?_) (hnodup.sublist (hsub.map _))
    obtain ⟨v, hv, rfl⟩ := List.mem_map.mp hm
    obtain ⟨v', hv', rfl⟩ := List.mem_map.mp hm'
    obtain ⟨-, -, -, -, hpos, -⟩ := hlisted v hv
    obtain ⟨-, -, -, -, hpos', -⟩ := hlisted v' hv'
    have hnumber : v.member.number = v'.member.number := by
      unfold MemberId.slot at heq
      omega
    exact congrArg MemberId.mk hnumber
  · obtain ⟨v, hv, rfl⟩ := List.mem_map.mp hslot
    obtain ⟨m, hm, hname, -⟩ := hlisted v hv
    have hother {id' : EntityId} {name' : String} {views' : List View}
        (hviews' : (a.rosterOf id').get? name' = some views') (hne : name' ≠ name) :
        v.member.slot ∉ slots views' := by
      intro hin
      obtain ⟨v', hv', heq⟩ := List.mem_map.mp hin
      obtain ⟨m', hm', hname', -⟩ := h.lists_rosterOf id' name' v' (by rwa [Roster.under, hviews'])
      rw [member?, heq] at hm'
      obtain rfl := Option.some.inj (hm'.symm.trans hm)
      exact hne (hname'.symm.trans hname)
    refine ⟨fun name' views' hviews' => hother hviews' ?_, fun name' views' hviews' hne =>
      hother ((Dict.mem_toList_iff _ _ _).mp hviews') hne⟩
    rintro rfl
    rw [hnone] at hviews'
    cases hviews'

/-! ## The class and the others -/

theorem rosterOf_listed {c : ClassBody} (hc : a.class? id = some c) (roster : Roster)
    (inlined : Inlined) :
    let listed := a.modifyClass id fun c => { c with roster }
    let after := listed.modifyEntity id fun e => inlined.foldl (Entity.inlining listed) e
    after.rosterOf id = roster ∧
      (∀ s m, m ∈ after.sectionMembers id s ↔ m ∈ a.sectionMembers id s ∨
        ∃ entry ∈ inlined, after.FilesUnder entry s ∧ m = entry.1) ∧
      ∀ id', id'.slot ≠ id.slot → after.entity? id' = a.entity? id' := by
  intro listed after
  obtain ⟨e, he, hclass⟩ := (a.class?_eq_some_iff id c).mp hc
  have hlisted : listed.entity? id = some (e.modifyClass fun c => { c with roster }) :=
    (a.entity?_modifyEntity id id _).trans (by rw [if_pos rfl, he, Option.map_some])
  have hafter : after.entity? id = some (inlined.foldl (Entity.inlining listed)
      (e.modifyClass fun c => { c with roster })) :=
    (listed.entity?_modifyEntity id id _).trans (by rw [if_pos rfl, hlisted, Option.map_some])
  refine ⟨?_, fun s m => ?_, fun id' hslot => ?_⟩
  · have hbody := (Entity.foldl_inlining listed inlined (e.modifyClass fun c => { c with roster })).2
    rw [Entity.class?_modifyClass, hclass] at hbody
    obtain ⟨c', hc', hfields⟩ := Option.map_eq_some_iff.mp hbody
    rw [rosterOf_of_class? hafter hc']
    exact congrArg Prod.fst hfields
  · rw [sectionMembers, hafter, Option.map_some, Option.getD_some, Entity.mem_sections_foldl_inlining,
      Entity.sections_modifyClass, sectionMembers, he]
    rfl
  · refine (listed.entity?_modifyEntity id id' _).trans ?_
    rw [if_neg hslot.symm]
    exact (a.entity?_modifyEntity id id' _).trans (if_neg hslot.symm)

theorem card_of_bare {own c : ClassBody} (hown : a.class? id = some own)
    (hb : b.entities = ((a.withCategory id category c).modifyClass id fun c =>
      { c with roster := .empty }).entities) :
    (∃ c', b.class? id = some c') ∧ (∀ s, b.sectionMembers id s = a.sectionMembers id s) ∧
      ∀ id', id'.slot ≠ id.slot →
        (b.entity? id').map Entity.card = (a.entity? id').map Entity.card := by
  have hentity (id' : EntityId) : b.entity? id' = _ :=
    (congrArg (·[id'.slot]?) hb).trans (entity?_modifyEntity _ id id' _)
  have hcard := (a.agrees_withCategory id category c).entity?_eq
  obtain ⟨e₀, he₀, hbody₀⟩ := (a.class?_eq_some_iff id own).mp hown
  obtain ⟨e, he, hecard⟩ : ∃ e, (a.withCategory id category c).entity? id = some e ∧
      e.card = e₀.card := by
    have hboth := hcard id
    rw [he₀] at hboth
    exact Option.map_eq_some_iff.mp hboth
  obtain ⟨c', hbody, -⟩ : ∃ c', e.class? = some c' ∧ _ := Option.map_eq_some_iff.mp
    ((congrArg (·.1.2) hecard).trans (congrArg (Option.map _) hbody₀))
  have hfound : b.entity? id = some (e.modifyClass fun c => { c with roster := .empty }) := by
    rw [hentity, if_pos rfl, he, Option.map_some]
  refine ⟨⟨{ c' with roster := .empty }, (b.class?_eq_some_iff id _).mpr ⟨_, hfound, ?_⟩⟩,
    fun s => ?_, fun id' hslot => ?_⟩
  · rw [Entity.class?_modifyClass, hbody, Option.map_some]
  · rw [sectionMembers, hfound, Option.map_some, Entity.sections_modifyClass, sectionMembers, he₀]
    exact congrArg (·.2.get s) hecard
  · rw [hentity, if_neg hslot.symm]
    exact hcard id'

theorem IsCopy.congr {a' b' : Atlas} {v w : View} (h : a.IsCopy b id category v w)
    (ha : a.members = a'.members) (hb : b.members = b'.members)
    (hnames : b.memberNames = b'.memberNames) : a'.IsCopy b' id category v w := by
  obtain ⟨hview, hfresh, hrecord⟩ := h
  unfold member? membersNamed at hrecord
  rw [ha] at hfresh hrecord
  rw [hb, hnames] at hrecord
  exact ⟨hview, hfresh, hrecord⟩

/-- What a class lists after it has taken over a category. -/
theorem Upholds.takesOver (h : a.Upholds .reached) {id category : EntityId}
    (hnodup : ((a.rosterOf category).views.map (·.member)).Nodup) {merged : Noted Atlas}
    (hmerged : a.mergeCategory id category = .ok merged)
    (hkept : ((a.entity? category).all fun e => !e.isLocal || a.options.extractLocalMethods) = true) :
    a.TakesOver id category merged.value := by
  have hapart := h.apart id hnodup
  rcases h.mergeCategory_cases hmerged with
    ⟨e, he, hlocal, -⟩ | ⟨own, c, result, hown, hc, hadopted, heq⟩
  · cases hlocal' : e.isLocal <;> simp_all
  · obtain ⟨touched, hrelates⟩ := hadopted.relates
    have htheirs : a.rosterOf category = c.roster := by
      rw [rosterOf, roster?, hc]
      rfl
    obtain ⟨⟨c', hc'⟩, hsections, hothers⟩ := card_of_bare hown hrelates.entities
    have hlisted := rosterOf_listed hc' result.2.1 (result.2.2.map fun v => (v.member, v.protection))
    dsimp only at hlisted
    rw [← heq] at hlisted
    obtain ⟨hroster, hfiled, hentities⟩ := hlisted
    have hmembers : result.1.members = merged.value.members := by
      rw [heq]
      rfl
    have hnames : result.1.memberNames = merged.value.memberNames := by
      rw [heq]
      rfl
    refine ⟨fun name => ?_, fun name views hviews => ?_, fun name views hviews hnone => ?_,
      fun s m => ?_, fun id' hslot => rosterOf_eq_of_card ?_⟩
    · have hkeys : name ∈ c.roster.toList.map (·.1) ↔ c.roster.get? name ≠ none := by
        rw [List.mem_map, Option.ne_none_iff_exists']
        constructor
        · rintro ⟨⟨name', views⟩, hentry, rfl⟩
          exact ⟨views, (Dict.mem_toList_iff _ _ _).mp hentry⟩
        · rintro ⟨views, hviews⟩
          exact ⟨(name, views), (Dict.mem_toList_iff _ _ _).mpr hviews, rfl⟩
      have hnamed := (hadopted.named name).not
      rw [not_and_or, not_not, hkeys] at hnamed
      rw [hroster, htheirs]
      simpa only [Dict.contains, Option.isSome_iff_ne_none] using hnamed
    · rw [hroster]
      exact hadopted.present name views hviews
    · obtain ⟨copies, hcopies, hcopied, hrelated⟩ := hadopted.copied name views
        ((Dict.mem_toList_iff _ _ _).mpr (htheirs ▸ hviews)) hnone
      refine ⟨copies, hroster.symm ▸ hcopies, hcopied.mp (fun v w hcopy hback => ⟨?_, ?_⟩)
        (hrelated (htheirs ▸ hapart))⟩
      · exact hcopy.congr (a.members_withCategory id category c) hmembers hnames
      · unfold IsRelated member? at hback ⊢
        rwa [← hmembers]
    · rw [hfiled, hsections]
      refine or_congr_right ?_
      simp only [List.mem_map, hadopted.adopted, hroster]
      constructor
      · rintro ⟨_, ⟨w, ⟨name, copies, hnone, hcopies, hw⟩, rfl⟩, hunder, rfl⟩
        exact ⟨name, copies, w, hnone, hcopies, hw, rfl, hunder⟩
      · rintro ⟨name, copies, w, hnone, hcopies, hw, rfl, hunder⟩
        exact ⟨_, ⟨w, ⟨name, copies, hnone, hcopies, hw⟩, rfl⟩, hunder, rfl⟩
    · rw [hentities id' hslot]
      exact hothers id' hslot

end Atlas

namespace Operation

/-- In every atlas that operations lead to, a class that takes over a category which is not left out
keeps what it has and lists copies of what the category has under other names; nothing else is
disturbed. -/
theorem takesOver_performAll (options : Options) (operations : List Operation)
    (hkeeps : ∀ operation ∈ operations, operation.KeepsRosters) {id category : EntityId}
    (hnodup : (((performAll (.empty options) operations).rosterOf category).views.map
      (·.member)).Nodup)
    {merged : Noted Atlas}
    (hmerged : (performAll (.empty options) operations).mergeCategory id category = .ok merged)
    (hkept : ((performAll (.empty options) operations).entity? category).all (fun e =>
      !e.isLocal || (performAll (.empty options) operations).options.extractLocalMethods) = true) :
    (performAll (.empty options) operations).TakesOver id category merged.value :=
  (upholds_performAll options hkeeps).1.takesOver hnodup hmerged hkept

/-- A class that can draw, and a category of it that can draw and scale. -/
def sketch : List Operation :=
  [.register "Shape" .classKind {}, .register "Shape(Sizes)" .category {},
    .addMember (some ⟨1⟩) { name := "draw", kind := .function }, .insertMember ⟨1⟩ ⟨1⟩,
    .addMember (some ⟨2⟩) { name := "draw", kind := .function }, .insertMember ⟨2⟩ ⟨2⟩,
    .addMember (some ⟨2⟩) { name := "scale", kind := .function }, .insertMember ⟨2⟩ ⟨3⟩]

/-- The class comes to list a new member with the name that it did not have. -/
theorem takesOver_performAll_sketch :
    let a := performAll (.empty {}) sketch
    (∀ operation ∈ sketch, operation.KeepsRosters) ∧
      ((a.rosterOf ⟨2⟩).views.map (·.member)).Nodup ∧
      (a.entity? ⟨2⟩).all (fun e => !e.isLocal || a.options.extractLocalMethods) = true ∧
      ∃ merged, a.mergeCategory ⟨1⟩ ⟨2⟩ = .ok merged ∧ a.TakesOver ⟨1⟩ ⟨2⟩ merged.value ∧
        (merged.value.rosterOf ⟨1⟩).toList.map (·.1) = ["draw", "scale"] := by
  have hkeeps : ∀ operation ∈ sketch, operation.KeepsRosters := by
    simp [sketch, KeepsRosters]
  have hnodup : (((performAll (.empty {}) sketch).rosterOf ⟨2⟩).views.map (·.member)).Nodup := by
    decide +kernel
  have hkept : ((performAll (.empty {}) sketch).entity? ⟨2⟩).all (fun e =>
      !e.isLocal || (performAll (.empty {}) sketch).options.extractLocalMethods) = true := by
    decide +kernel
  have hnames : ((performAll (.empty {}) sketch).mergeCategory ⟨1⟩ ⟨2⟩).toOption.map (fun merged =>
      (merged.value.rosterOf ⟨1⟩).toList.map (·.1)) = some ["draw", "scale"] := by
    decide +kernel
  cases hmerged : (performAll (.empty {}) sketch).mergeCategory ⟨1⟩ ⟨2⟩ with
  | error fault => simp [hmerged, Except.toOption] at hnames
  | ok merged =>
    rw [hmerged] at hnames
    exact ⟨hkeeps, hnodup, hkept, merged, hmerged,
      takesOver_performAll {} sketch hkeeps hnodup hmerged hkept, Option.some.inj hnames⟩

end Operation

end SymbolAtlas
