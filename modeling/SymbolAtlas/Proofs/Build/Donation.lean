import SymbolAtlas.Proofs.Build.Extensions
import SymbolAtlas.Proofs.Build.Scopes

/-!
# The bases that extensions give

An extension gives its bases to the class that it extends when it is taken in. Categories are taken in
record by record, so an extension that is declared several times gives its bases several times.
-/

set_option autoImplicit false

namespace SymbolAtlas

/-- The entities of the declarations that are understood, one for each declaration. -/
def Document.declaredIds (d : Document) (a : Atlas) : List EntityId :=
  (d.entities.filter (·.isUnderstood)).filterMap fun decl => a.find? decl.name

/-- The extensions that have been taken into a class, one for each declaration. -/
def Document.extensionsOf (d : Document) (a : Atlas) (id : EntityId) : List EntityId :=
  (d.declaredIds a).filter fun x => a.isExtension x && a.categoryOf x == some id

namespace Atlas

variable {a b : Atlas} {isStrict : Bool}

theorem options_adopt (a : Atlas) (id category : EntityId) (c : ClassBody) (isLocal : Bool) :
    (a.adopt id category c isLocal).value.options = a.options :=
  (SharesSkeleton.adopt a id category c isLocal).options.trans
    (withCategory_kept (P := fun b => b.options = a.options) (fun _ _ _ _ hb => hb)
      (fun _ _ hb => hb) id category c rfl)

/-! ## Taking one category in -/

theorem Agrees.isSome_class?_eq (h : Agrees Entity.place a b) (id : EntityId) :
    (b.class? id).isSome = (a.class? id).isSome := by
  refine read_of_map_eq h.2 (f := fun x => (x.bind (·.class?)).isSome) (fun e e' hplace => ?_) id
  exact e.isClass_eq_place.trans (hplace ▸ e'.isClass_eq_place.symm)

theorem exists_name_of_extendee? {id extended : EntityId} (h : a.extendee? id = some extended) :
    (∃ name, a.find? name = some extended) ∧ (a.class? extended).isSome = true := by
  obtain ⟨e, he, h⟩ := Option.bind_eq_some_iff.mp h
  split at h
  · obtain ⟨parts, -, h⟩ := Option.bind_eq_some_iff.mp h
    obtain ⟨name, hfind, haccept⟩ := find?_of_resolve? h
    refine ⟨⟨name, hfind⟩, ?_⟩
    unfold class?
    cases he' : a.entity? extended with
    | none => simp [he'] at haccept
    | some e' =>
      rw [he', Option.any_some, Bool.and_eq_true] at haccept
      exact haccept.1
  · cases h

theorem IsWired.isSome_class?_of_extendee? (h : a.IsWired) {id extended : EntityId}
    (hextendee : a.extendee? id = some extended) : (a.class? id).isSome = true := by
  obtain ⟨e, he, hkind⟩ := Option.map_eq_some_iff.mp (kinds_of_extendee? hextendee).1
  have hprofile : a.profile? id = some e.profile := by
    rw [profile?, he]
    rfl
  have hrelations := h.kinds id e.profile hprofile
  rw [← relations?_of_profile? hprofile, relations?, Option.isSome_map] at hrelations
  rw [hrelations]
  show (!e.kind.isNamespaceLike) = true
  rw [hkind]
  rfl

theorem mergeCategory_eq (hlocal : a.options.extractLocalMethods = true)
    {extended category : EntityId}
    (hextended : (a.class? extended).isSome = true) {c : ClassBody}
    (hc : a.class? category = some c) :
    ∃ isLocal, a.mergeCategory extended category = .ok (a.adopt extended category c isLocal) := by
  have hrequire {id : EntityId} {c : ClassBody} (hc : a.class? id = some c) :
      a.requireClass id = .ok c ∧ ∃ e, a.requireEntity id = .ok e := by
    obtain ⟨e, he, hc⟩ := Option.bind_eq_some_iff.mp hc
    unfold requireClass requireEntity
    rw [he]
    dsimp only
    rw [hc]
    exact ⟨rfl, e, rfl⟩
  obtain ⟨target, htarget⟩ := Option.isSome_iff_exists.mp hextended
  obtain ⟨hclass, e, he⟩ := hrequire hc
  refine ⟨e.isLocal, ?_⟩
  unfold mergeCategory
  rw [(hrequire htarget).1, hclass, he]
  show (if (e.isLocal && !a.options.extractLocalMethods) = true then _ else _) = _
  rw [hlocal, Bool.not_true, Bool.and_false]
  rfl

/-! ## Taking all categories in -/

/-- The categories in the list have been taken in since `a`, one by one. -/
structure HasDonated (a b : Atlas) (ids : List EntityId) : Prop where
  hasTakenIn : a.HasTakenIn b
  options : b.options = a.options
  categories : ∀ x, 0 < x.number → b.categoryOf x = if x ∈ ids then a.extendee? x else none
  bases : ∀ x, 0 < x.number → (a.entity? x).map (·.kind) ≠ some .category →
    b.bases x = a.bases x ++
      (ids.filter fun id => a.isExtension id && a.extendee? id == some x).flatMap a.bases

namespace HasDonated

variable {ids : List EntityId} {category extended : EntityId}

theorem start (h : ∀ x, a.categoryOf x = none) : a.HasDonated a [] where
  hasTakenIn := .start h
  options := rfl
  categories x _ := by simp [h]
  bases x _ _ := by simp

theorem isExtension_eq (h : a.HasDonated b ids) (x : EntityId) : b.isExtension x = a.isExtension x :=
  (h.hasTakenIn.place.map Place.isExtension?).isExtension_eq x

theorem skip (h : a.HasDonated b ids) (hextendee : a.extendee? category = none) :
    a.HasDonated b (ids ++ [category]) where
  hasTakenIn := h.hasTakenIn
  options := h.options
  categories x hx := by
    rw [h.categories x hx]
    by_cases heq : x = category
    · subst heq
      simp [hextendee]
    · simp [heq]
  bases x hx hkind := by
    rw [h.bases x hx hkind, List.filter_append, List.filter_singleton, hextendee]
    simp

/-- One more category is taken in. If it is an extension, the class that it extends gets its bases,
also if it has got them before. -/
theorem mergeCategory (hwired : a.IsWired) (hpaired : a.IsPaired) (h : a.HasDonated b ids)
    (hpos : 0 < category.number) (hextendee : a.extendee? category = some extended) {c : ClassBody}
    (hc : b.class? category = some c) {isLocal : Bool}
    (hmerged : b.mergeCategory extended category = .ok (b.adopt extended category c isLocal)) :
    a.HasDonated (b.adopt extended category c isLocal).value (ids ++ [category]) := by
  have hextendee' : b.extendee? category = some extended := by
    rw [h.hasTakenIn.place.extendee?_eq, hextendee]
  obtain ⟨hcategory, hextended⟩ := kinds_of_extendee? hextendee
  have hne : extended ≠ category := by
    rintro rfl
    exact hextended hcategory
  have hclass : (b.relations? extended).isSome = true := by
    rw [relations?, Option.isSome_map]
    exact (exists_name_of_extendee? hextendee').2
  have hslot {x y : EntityId} (hx : 0 < x.number) (hy : 0 < y.number) : x.slot = y.slot ↔ x = y :=
    ⟨EntityId.eq_of_slot hx hy, congrArg _⟩
  obtain ⟨⟨name, hname⟩, -⟩ := exists_name_of_extendee? hextendee
  have hpos' : 0 < extended.number := (hwired.names _ _ hname).1
  obtain ⟨hredirects, hassigned⟩ := redirects_adopt hclass hne hc isLocal
  refine ⟨h.hasTakenIn.mergeCategory hwired hpaired hpos hextendee' hmerged,
    (b.options_adopt extended category c isLocal).trans h.options, fun x hx => ?_,
    fun x hx hkind => ?_⟩
  · rw [hassigned, h.categories x hx]
    simp only [hslot hpos hx, List.mem_append, List.mem_singleton]
    by_cases heq : category = x
    · subst heq
      simp [hextendee]
    · simp [heq, Ne.symm heq]
  · rw [hredirects.bases, h.bases x hx hkind, List.filter_append, List.filter_singleton, hextendee,
      h.isExtension_eq, h.hasTakenIn.bases category hcategory]
    simp only [hslot hpos' hx]
    by_cases heq : extended = x
    · cases a.isExtension category <;> simp [heq]
    · have hbeq : (some extended == some x) = false := by simpa using heq
      simp [heq, hbeq]

theorem bases_of_agrees {c : Atlas} {d : Document} (h : a.HasDonated b (d.declaredIds c))
    (hagrees : Agrees Entity.listing b c) (hids : ∀ x ∈ d.declaredIds c, 0 < x.number) {id : EntityId}
    (hid : 0 < id.number) (hkind : (c.entity? id).map (·.kind) ≠ some .category) :
    c.bases id = a.bases id ++ (d.extensionsOf c id).flatMap c.bases ∧
      ∀ x, 0 < x.number →
        (x ∈ d.extensionsOf c id ↔ c.isExtension x = true ∧ c.categoryOf x = some id) := by
  have hedges := (hagrees.map Prod.fst).edges_eqs
  have hextension (x : EntityId) : c.isExtension x = a.isExtension x :=
    ((hagrees.map Prod.snd).isExtension_eq x).trans (h.isExtension_eq x)
  have hcategory (x : EntityId) (hx : 0 < x.number) :
      c.categoryOf x = if x ∈ d.declaredIds c then a.extendee? x else none :=
    (hedges x).2.2.trans (h.categories x hx)
  have hkind' : (a.entity? id).map (·.kind) ≠ some .category := by
    have hplace : Agrees Entity.kind a b := h.hasTakenIn.place.map Place.kind
    have hlisting : Agrees Entity.kind b c := hagrees.map fun listing => listing.1.kind
    rwa [(hplace.trans hlisting).entity?_eq id] at hkind
  have hfilter : d.extensionsOf c id = (d.declaredIds c).filter fun x =>
      a.isExtension x && a.extendee? x == some id := by
    apply List.filter_congr
    intro x hx
    rw [hextension, hcategory x (hids x hx), if_pos hx]
  constructor
  · rw [(hedges id).1, h.bases id hid hkind', hfilter]
    congr 1
    apply List.flatMap_congr
    intro x hx
    -- An extension is a category, which keeps its bases when it is taken in.
    simp only [List.mem_filter, Bool.and_eq_true, beq_iff_eq] at hx
    rw [(hedges x).1, h.hasTakenIn.bases x (kinds_of_extendee? hx.2.2).1]
  · intro x hx
    simp only [Document.extensionsOf, List.mem_filter, Bool.and_eq_true, beq_iff_eq]
    constructor
    · exact fun hmem => hmem.2
    · intro hmem
      refine ⟨?_, hmem⟩
      by_contra hnone
      rw [hcategory x hx, if_neg hnone] at hmem
      cases hmem.2

end HasDonated

end Atlas

namespace Build

open Atlas

theorem atlas_mergeCategoryOf {progress : Progress} {owner : Declared}
    (hname : progress.atlas.name owner.1 = owner.2.name) {extended : EntityId}
    (hextendee : progress.atlas.extendee? owner.1 = some extended) {merged : Noted Atlas}
    (hmerged : progress.atlas.mergeCategory extended owner.1 = .ok merged) :
    (mergeCategoryOf progress owner).value.atlas = merged.value := by
  obtain ⟨e, he, hextendee⟩ := Option.bind_eq_some_iff.mp hextendee
  have hname' : e.name = owner.2.name := by
    rw [← hname, Atlas.name, he]
    rfl
  split at hextendee
  · next hkind =>
    obtain ⟨parts, hparts, hextendee⟩ := Option.bind_eq_some_iff.mp hextendee
    rw [hname'] at hparts
    unfold mergeCategoryOf
    simp [he, hkind, hparts, hextendee, hmerged]
  · cases hextendee

/-- The run lemma: every extension gives its bases to the class it extends. -/
theorem hasDonated_foldlM {a : Atlas} (hwired : a.IsWired) (hpaired : a.IsPaired)
    (hlocal : a.options.extractLocalMethods = true) {declared : List Declared}
    (hdeclared : ∀ owner ∈ declared, a.Holds owner.1 ∧ a.name owner.1 = owner.2.name)
    {progress : Progress} {ids : List EntityId} (h : a.HasDonated progress.atlas ids) :
    a.HasDonated (declared.foldlM mergeCategoryOf progress).value.atlas
      (ids ++ declared.map (·.1)) := by
  rw [Noted.value_foldlM]
  induction declared generalizing progress ids with
  | nil => simpa using h
  | cons owner rest ih =>
    obtain ⟨hholds, hname⟩ := hdeclared owner List.mem_cons_self
    have hname' : progress.atlas.name owner.1 = owner.2.name :=
      ((h.hasTakenIn.place.map Place.name).name_eq owner.1).trans hname
    have hassoc : ids ++ (owner :: rest).map (·.1) = ids ++ [owner.1] ++ rest.map (·.1) := by simp
    rw [hassoc]
    apply ih fun other hother => hdeclared other (List.mem_cons_of_mem _ hother)
    have hsame := h.hasTakenIn.place.extendee?_eq owner.1
    cases hextendee : a.extendee? owner.1 with
    | none =>
      rcases mergeCategoryOf_cases hname' with heq | ⟨extended, merged, hsome, -, -⟩
      · rw [heq]
        exact h.skip hextendee
      · rw [hsame, hextendee] at hsome
        cases hsome
    | some extended =>
      rw [hextendee] at hsame
      have hclass : (progress.atlas.class? owner.1).isSome = true := by
        rw [h.hasTakenIn.place.isSome_class?_eq]
        exact hwired.isSome_class?_of_extendee? hextendee
      obtain ⟨c, hc⟩ := Option.isSome_iff_exists.mp hclass
      obtain ⟨isLocal, hmerged⟩ := mergeCategory_eq (by rw [h.options]; exact hlocal)
        (exists_name_of_extendee? hsame).2 hc
      rw [atlas_mergeCategoryOf hname' hsame hmerged]
      exact h.mergeCategory hwired hpaired hholds.1 hextendee hc hmerged

theorem declaredIds_run (options : Options) (d : Document) :
    d.declaredIds (run options d).value.1 = (linkAll options d).value.2.map (·.1) := by
  have hdeclared : (linkAll options d).value.2.map (·.2) = d.entities.filter (·.isUnderstood) :=
    declared_registerAll { atlas := .empty options } d
  have hfound : ∀ owner ∈ (linkAll options d).value.2,
      (run options d).value.1.find? owner.2.name = some owner.1 :=
    fun owner howner => (find?_of_declared options d howner).2
  rw [Document.declaredIds, ← hdeclared, List.filterMap_map, ← List.filterMap_eq_map]
  apply List.filterMap_congr
  intro owner howner
  exact hfound owner howner

/-- In the atlas that a build ends with, the bases of a class that is no category are those that it
had when all bases were linked, and after them the bases of its extensions, in the order in which they
are declared. An extension that is declared several times gives its bases several times. -/
theorem bases_with_extensions (options : Options) (d : Document)
    (hlocal : options.extractLocalMethods = true) :
    let before := (linkAll options d).value.1.atlas
    let after := (run options d).value.1
    ∀ id, after.HoldsClass id → (after.entity? id).map (·.kind) ≠ some .category →
      after.bases id = before.bases id ++ (d.extensionsOf after id).flatMap after.bases ∧
      ∀ x, 0 < x.number →
        (x ∈ d.extensionsOf after id ↔ after.isExtension x = true ∧ after.categoryOf x = some id) := by
  intro before after id hid hkind
  obtain ⟨hchanges, hnone, hdeclared⟩ := changes_linkAll options d
  have hlocal' : before.options.extractLocalMethods = true := by
    rw [hchanges.options]
    exact hlocal
  have hdonated : before.HasDonated _ ([] ++ (linkAll options d).value.2.map (·.1)) :=
    hasDonated_foldlM (hchanges.isWired (.empty options))
      (hchanges.isPaired (.empty options)) hlocal' hdeclared (.start hnone)
  rw [← declaredIds_run] at hdonated
  have hpos : ∀ x ∈ d.declaredIds after, 0 < x.number := by
    intro x hx
    rw [declaredIds_run] at hx
    obtain ⟨owner, howner, rfl⟩ := List.mem_map.mp hx
    exact (hdeclared owner howner).1.1
  exact hdonated.bases_of_agrees (agrees_listing_run options d) hpos hid.1 hkind

/-- An extension of one class is declared twice, and one of another class once, with two bases. -/
def generous : Document where
  entities :=
    [{ name := "Base", kind := "protocol" },
     { name := "Foo", kind := "class" },
     { name := "Foo()", kind := "category", bases := [.plain "Base"] },
     { name := "Foo()", kind := "category" },
     { name := "Other", kind := "protocol" },
     { name := "Bar", kind := "class", bases := [.plain "Other"] },
     { name := "Bar()", kind := "category", bases := [.plain "Base", .plain "Foo"] }]

/-- The class with one declaration of its extension has each base of the extension once. -/
theorem bases_with_extensions_generous :
    let before := (linkAll { extractLocalMethods := true } generous).value.1.atlas
    let after := (run { extractLocalMethods := true } generous).value.1
    after.HoldsClass ⟨5⟩ ∧ (after.entity? ⟨5⟩).map (·.kind) ≠ some .category ∧
      generous.extensionsOf after ⟨5⟩ = [⟨6⟩] ∧
      after.bases ⟨5⟩ = before.bases ⟨5⟩ ++ after.bases ⟨6⟩ := by
  intro before after
  have hid : after.HoldsClass ⟨5⟩ :=
    (after.holdsClass_and_class? ⟨5⟩ (by decide) (by decide +kernel)).1
  have hkind : (after.entity? ⟨5⟩).map (·.kind) ≠ some .category := by decide +kernel
  have hextensions : generous.extensionsOf after ⟨5⟩ = [⟨6⟩] := by decide +kernel
  have hbases := (bases_with_extensions { extractLocalMethods := true } generous rfl ⟨5⟩ hid hkind).1
  rw [hextensions, List.flatMap_singleton] at hbases
  exact ⟨hid, hkind, hextensions, hbases⟩

/-- The extension that is declared twice gives its base twice. -/
theorem base_given_twice_generous :
    let after := (run { extractLocalMethods := true } generous).value.1
    (after.bases ⟨3⟩).map (·.target) = [⟨1⟩] ∧ after.categoryOf ⟨3⟩ = some ⟨2⟩ ∧
      (after.bases ⟨2⟩).map (·.target) = [⟨1⟩, ⟨1⟩] := by
  decide +kernel

end Build

end SymbolAtlas
