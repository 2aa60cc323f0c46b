import SymbolAtlas.Proofs.Build.Settling
import SymbolAtlas.Proofs.Build.Wiring

/-!
# Extensions among derived classes

An extension is listed by its bases where its own name puts it. When it is taken into the class that
it extends, that class is listed in its stead, in the same place. So derived classes are in order of
the names under which they were listed, and in order of their own names where no class in the list
stands for an extension.
-/

set_option autoImplicit false

namespace SymbolAtlas

variable {extension x : EntityId} {given : List BaseEdge} {f : ClassBody → ClassBody}
  {merged : Noted Atlas} {progress : Build.Progress}

variable {id : EntityId}

/-- What names are resolved by, and whether a class is an extension. -/
structure Place where
  name : String
  kind : EntityKind
  outer : Option EntityId
  used? : Option (Dict EntityId)
  isExtension? : Option Bool

namespace Entity

variable (e : Entity)

def place (e : Entity) : Place where
  name := e.name
  kind := e.kind
  outer := e.outer
  used? := e.used?
  isExtension? := e.class?.map (·.traits.isExtension)

theorem place_skeleton : e.skeleton.place = e.place := by
  unfold skeleton place used? class? namespace?
  cases e.body <;> rfl

theorem place_modifyClass (hf : ∀ c, (f c).traits.isExtension = c.traits.isExtension) :
    (e.modifyClass f).place = e.place := by
  unfold place
  rw [used?_modifyClass, class?_modifyClass, Option.map_map]
  simp only [Function.comp_def, hf]
  unfold modifyClass
  cases e.body <;> rfl

theorem isClass_eq_place : e.isClass = e.place.isExtension?.isSome := by
  unfold place isClass
  rw [Option.isSome_map]

/-- What derived classes are listed by, and whether a class is an extension. -/
def listing (e : Entity) : Profile × Option Bool :=
  (e.profile, e.class?.map (·.traits.isExtension))

theorem listing_modifyNamespace (f : NamespaceBody → NamespaceBody) :
    (e.modifyNamespace f).listing = e.listing := by
  rw [listing, profile_modifyNamespace, class?_modifyNamespace, listing]

theorem listing_skeleton : e.skeleton.listing = e.listing := by
  unfold skeleton listing profile class?
  cases e.body <;> rfl

end Entity

namespace Atlas

variable {a b : Atlas}

/-! ## What a category extends -/

/-- Whether a class is an extension. -/
def isExtension (a : Atlas) (id : EntityId) : Bool :=
  (a.class? id).any (·.traits.isExtension)

/-- The class that is listed in place of a class: an extension gives way to what it extends. -/
def standIn (a : Atlas) (id : EntityId) : EntityId :=
  if a.isExtension id then a.extendedClass id else id

/-- The class that a category extends, as its name says. -/
def extendee? (a : Atlas) (id : EntityId) : Option EntityId :=
  (a.entity? id).bind fun e =>
    if e.kind = .category then
      (QualifiedName.categoryParts? e.name).bind fun parts =>
        a.resolve? e.outer (QualifiedName.localName parts.1) fun e => e.isClass && e.kind != .category
    else none

theorem Agrees.name_eq (h : Agrees Entity.name a b) (id : EntityId) : b.name id = a.name id :=
  congrArg (·.getD "") (h.entity?_eq id)

theorem Agrees.bind_place {β : Type} (h : Agrees Entity.place a b) (g : Place → Option β)
    (id : EntityId) :
    ((b.entity? id).bind fun e => g e.place) = (a.entity? id).bind fun e => g e.place :=
  read_of_map_eq h.2 (f := fun x => x.bind fun e => g e.place) (fun _ _ => congrArg g) id

theorem Agrees.resolve?_eq (h : Agrees Entity.place a b) {accept : Entity → Bool}
    (haccept : ∀ e e' : Entity, e.place = e'.place → accept e = accept e') (scope : Option EntityId)
    (name : String) : b.resolve? scope name accept = a.resolve? scope name accept := by
  have hnames : b.name = a.name :=
    funext (h.map Place.name).name_eq
  have hused : b.usedNamespaces = a.usedNamespaces := by
    funext id
    rw [Atlas.usedNamespaces_eq, Atlas.usedNamespaces_eq]
    exact congrArg (fun used => (used.map (·.values)).getD []) (h.bind_place Place.used? id)
  have hchain : b.scopeChain = a.scopeChain := by
    have hgraph : b.scopeGraph = a.scopeGraph := by
      unfold scopeGraph
      congr 1
      · unfold entityNumbers
        rw [h.size]
      · funext id
        exact congrArg Option.toList (h.bind_place Place.outer id)
    unfold scopeChain
    rw [hgraph]
  have hfind : b.findAccepted? accept = a.findAccepted? accept := by
    funext name
    unfold findAccepted?
    rw [h.find?_eq]
    congr 1
    funext id
    exact read_of_map_eq h.2 (f := Option.any accept) haccept id
  unfold resolve?
  rw [hnames, hused, hchain, hfind]

theorem Agrees.extendee?_eq (h : Agrees Entity.place a b) (id : EntityId) :
    b.extendee? id = a.extendee? id := by
  have haccept (e e' : Entity) (hplace : e.place = e'.place) :
      (e.isClass && e.kind != .category) = (e'.isClass && e'.kind != .category) := by
    have hkind : e.kind = e'.kind := congrArg Place.kind hplace
    rw [e.isClass_eq_place, e'.isClass_eq_place, hplace, hkind]
  unfold extendee?
  simp only [h.resolve?_eq haccept]
  exact h.bind_place (fun place =>
    if place.kind = .category then
      (QualifiedName.categoryParts? place.name).bind fun parts =>
        a.resolve? place.outer (QualifiedName.localName parts.1) fun e =>
          e.isClass && e.kind != .category
    else none) id

theorem extendee?_eq_of_slot (a : Atlas) {id id' : EntityId} (h : id.slot = id'.slot) :
    a.extendee? id = a.extendee? id' := by
  unfold extendee?
  rw [a.entity?_eq_of_slot h]

theorem kinds_of_extendee? {id extended : EntityId} (h : a.extendee? id = some extended) :
    (a.entity? id).map (·.kind) = some .category ∧
      (a.entity? extended).map (·.kind) ≠ some .category := by
  obtain ⟨e, he, h⟩ := Option.bind_eq_some_iff.mp h
  split at h
  · next hkind =>
    obtain ⟨parts, -, h⟩ := Option.bind_eq_some_iff.mp h
    obtain ⟨name, -, haccept⟩ := find?_of_resolve? h
    refine ⟨by rw [he, Option.map_some, hkind], fun hcategory => ?_⟩
    obtain ⟨e', he', hkind'⟩ := Option.map_eq_some_iff.mp hcategory
    rw [he', Option.any_some, hkind'] at haccept
    simp at haccept
  · cases h

/-! ## Taking a category in -/

/-- The edges of a list that lead to an extension lead to the class it extends. -/
def retarget (extension extended : EntityId) (edges : List BaseEdge) : List BaseEdge :=
  edges.map fun edge => if edge.target = extension then { edge with target := extended } else edge

theorem retarget_retarget {extended : EntityId} (hne : extended ≠ extension)
    (edges : List BaseEdge) :
    retarget extension extended (retarget extension extended edges) =
      retarget extension extended edges := by
  unfold retarget
  rw [List.map_map]
  congr 1
  funext edge
  by_cases htarget : edge.target = extension <;> simp [htarget, hne]

theorem targets_retarget (extension extended : EntityId) (edges : List BaseEdge) :
    (retarget extension extended edges).map (·.target) =
      (edges.map (·.target)).map fun x => if x = extension then extended else x := by
  unfold retarget
  rw [List.map_map, List.map_map]
  congr 1
  funext edge
  simp only [Function.comp_apply]
  split <;> rfl

/-- Some bases of an extension have been given to the class it extends, and list it in place of the
extension. -/
structure Redirects (a b : Atlas) (extended extension : EntityId) (given : List BaseEdge) : Prop where
  place : Agrees Entity.place a b
  bases : ∀ x, b.bases x = a.bases x ++ if extended.slot = x.slot then given else []
  derived : ∀ x, b.derived x =
    if ∃ edge ∈ given, edge.target.slot = x.slot then retarget extension extended (a.derived x)
    else a.derived x

theorem Redirects.of_edges (hplace : Agrees Entity.place a b)
    (hedges : ∀ x, b.bases x = a.bases x ∧ b.derived x = a.derived x)
    (extended extension : EntityId) : Redirects a b extended extension [] where
  place := hplace
  bases x := by rw [(hedges x).1]; simp
  derived x := by rw [(hedges x).2]; simp

theorem Redirects.trans {c : Atlas} {extended : EntityId} {given' : List BaseEdge}
    (hne : extended ≠ extension) (h : Redirects a b extended extension given)
    (h' : Redirects b c extended extension given') :
    Redirects a c extended extension (given ++ given') where
  place := h.place.trans h'.place
  bases x := by
    rw [h'.bases, h.bases]
    split <;> simp
  derived x := by
    rw [h'.derived, h.derived]
    by_cases hgiven : ∃ edge ∈ given, edge.target.slot = x.slot
    · have hboth : ∃ edge ∈ given ++ given', edge.target.slot = x.slot := by
        obtain ⟨edge, hedge, hslot⟩ := hgiven
        exact ⟨edge, List.mem_append_left _ hedge, hslot⟩
      rw [if_pos hgiven, if_pos hboth, retarget_retarget hne, ite_self]
    · rw [if_neg hgiven]
      simp only [List.mem_append, or_and_right, exists_or, hgiven, false_or]

theorem Redirects.grows {extended : EntityId} (h : Redirects a b extended extension given)
    (x : EntityId) : a.bases x ⊆ b.bases x := by
  rw [h.bases]
  exact List.subset_append_left _ _

theorem agrees_place_modifyClass (a : Atlas) (id : EntityId)
    (hf : ∀ c, (f c).traits.isExtension = c.traits.isExtension) :
    Agrees Entity.place a (a.modifyClass id f) :=
  .modifyEntity a id fun e => e.place_modifyClass hf

theorem redirects_donateBase {a : Atlas} {extended : EntityId}
    (hclass : (a.relations? extended).isSome = true) (extension : EntityId) (edge : BaseEdge) :
    let b := (a.modifyClass extended fun c =>
      { c with bases := c.bases ++ [edge], isSimple := false }).retargetDerived edge.target extension
        extended
    Redirects a b extended extension [edge] ∧ (∀ x, b.categoryOf x = a.categoryOf x) ∧
      (b.relations? extended).isSome = true := by
  intro b
  have hrelations (x : EntityId) :
      b.relations? x = (a.relations? x).map (.donated extended extension edge x) :=
    (a.modifies_donateBase extended extension edge).relations?_eq x
  refine ⟨⟨?_, fun x => ?_, fun x => ?_⟩, fun x => ?_, ?_⟩
  · exact (agrees_place_modifyClass a extended (by intro c; rfl)).trans
      (agrees_place_modifyClass _ edge.target (by intro c; rfl))
  · rw [b.bases_eq_relations?, hrelations, a.bases_eq_relations?]
    by_cases hx : extended.slot = x.slot
    · rw [a.relations?_eq_of_slot hx] at hclass
      obtain ⟨r, hr⟩ := Option.isSome_iff_exists.mp hclass
      simp [hr, Relations.donated, hx]
    · cases a.relations? x <;> simp [Relations.donated, hx]
  · rw [b.derived_eq_relations?, hrelations, a.derived_eq_relations?]
    cases a.relations? x with
    | none => simp [retarget]
    | some r =>
      simp only [Option.map_some, Option.getD_some, Relations.donated, List.mem_singleton,
        exists_eq_left]
      rfl
  · rw [categoryOf_eq_relations?, hrelations, Option.bind_map, categoryOf_eq_relations?]
    rfl
  · rw [hrelations, Option.isSome_map]
    exact hclass

theorem redirects_donateBases {a : Atlas} {extended : EntityId}
    (hclass : (a.relations? extended).isSome = true) (hne : extended ≠ extension)
    (bases : List BaseEdge) :
    Redirects a (a.donateBases extended extension bases) extended extension bases ∧
      ∀ x, (a.donateBases extended extension bases).categoryOf x = a.categoryOf x := by
  induction bases generalizing a with
  | nil => exact ⟨.of_edges (.refl _ a) (fun x => ⟨rfl, rfl⟩) _ _, fun x => rfl⟩
  | cons edge rest ih =>
    obtain ⟨hfirst, hkept, hclass'⟩ := redirects_donateBase hclass extension edge
    obtain ⟨hrest, hkept'⟩ := ih hclass'
    exact ⟨hfirst.trans hne hrest, fun x => (hkept' x).trans (hkept x)⟩

theorem Agrees.edges_eqs (h : Agrees Entity.profile a b) (id : EntityId) :
    b.bases id = a.bases id ∧ b.derived id = a.derived id ∧ b.categoryOf id = a.categoryOf id := by
  apply eqs_of_edges_eq
  unfold edges
  rw [relations?_eq_profile?, relations?_eq_profile?, h.profile?_eq]

theorem redirects_of_agrees (hplace : Agrees Entity.place a b) (hprofile : Agrees Entity.profile a b)
    (extended extension : EntityId) :
    Redirects a b extended extension [] ∧ ∀ x, b.categoryOf x = a.categoryOf x :=
  ⟨.of_edges hplace (fun x => ⟨(hprofile.edges_eqs x).1, (hprofile.edges_eqs x).2.1⟩) _ _,
    fun x => (hprofile.edges_eqs x).2.2⟩

theorem redirects_mark {category : EntityId} {c : ClassBody} (hc : a.class? category = some c)
    (extended : EntityId) :
    let b := a.modifyClass category fun c => { c with categoryOf := some extended }
    Redirects a b extended category [] ∧
      (∀ x, b.categoryOf x = if category.slot = x.slot then some extended else a.categoryOf x) ∧
      ∀ x, (b.relations? x).isSome = (a.relations? x).isSome := by
  intro b
  have hrelations (x : EntityId) :
      b.relations? x = (a.relations? x).map (.extending category extended x) :=
    (a.modifies_extend category extended).relations?_eq x
  refine ⟨.of_edges (agrees_place_modifyClass a category (by intro c; rfl)) (fun x => ?_) _ _,
    fun x => ?_, fun x => by rw [hrelations, Option.isSome_map]⟩
  · rw [b.bases_eq_relations?, b.derived_eq_relations?, hrelations, Option.map_map, Option.map_map,
      a.bases_eq_relations?, a.derived_eq_relations?]
    exact ⟨rfl, rfl⟩
  · rw [b.categoryOf_eq_relations?, hrelations, Option.bind_map, a.categoryOf_eq_relations?]
    by_cases hslot : category.slot = x.slot
    · have hr : a.relations? x = some c.relations := by
        rw [← a.relations?_eq_of_slot hslot, relations?, hc]
        rfl
      simp [hr, Relations.extending, hslot]
    · simp [Relations.extending, hslot]

/-- A category is marked as one of the class it extends. If it is an extension, the class gets its
bases. -/
theorem redirects_withCategory {extended category : EntityId}
    (hclass : (a.relations? extended).isSome = true) (hne : extended ≠ category) {c : ClassBody}
    (hc : a.class? category = some c) :
    Redirects a (a.withCategory extended category c) extended category
      (if a.isExtension category then a.bases category else []) ∧
      ∀ x, (a.withCategory extended category c).categoryOf x =
        if category.slot = x.slot then some extended else a.categoryOf x := by
  have hextension : a.isExtension category = c.traits.isExtension := by
    rw [isExtension, hc]
    rfl
  have hbases : a.bases category = c.bases := by
    rw [Atlas.bases, hc]
    rfl
  obtain ⟨hmarked, hassigned, hclasses⟩ := redirects_mark hc extended
  unfold withCategory
  rw [hextension, hbases]
  split
  · have hagrees : Agrees (fun e => (e.place, e.profile))
        (a.modifyClass category fun c => { c with categoryOf := some extended }) _ :=
      .modifyEntity _ category (f := fun e => { e with flags.isArtificial := true }) fun e => rfl
    have hprofile := hagrees.map Prod.snd
    obtain ⟨hflagged, hkept⟩ := redirects_of_agrees (hagrees.map Prod.fst) hprofile extended category
    have hclass' := hclass
    rw [← hclasses, relations?_eq_profile?, ← hprofile.profile?_eq, ← relations?_eq_profile?]
      at hclass'
    obtain ⟨hdonated, hkept'⟩ := redirects_donateBases hclass' hne c.bases
    refine ⟨?_, fun x => ((hkept' x).trans (hkept x)).trans (hassigned x)⟩
    simpa using (hmarked.trans hne hflagged).trans hne hdonated
  · exact ⟨hmarked, hassigned⟩

theorem redirects_adopt {extended category : EntityId}
    (hclass : (a.relations? extended).isSome = true) (hne : extended ≠ category) {c : ClassBody}
    (hc : a.class? category = some c) (isLocal : Bool) :
    let b := (a.adopt extended category c isLocal).value
    Redirects a b extended category (if a.isExtension category then a.bases category else []) ∧
      ∀ x, b.categoryOf x = if category.slot = x.slot then some extended else a.categoryOf x := by
  have hadopted := SharesSkeleton.adopt a extended category c isLocal
  obtain ⟨hfilled, hkept⟩ := redirects_of_agrees (hadopted.view Entity.place_skeleton)
    hadopted.profile extended category
  obtain ⟨hwith, hassigned⟩ := redirects_withCategory hclass hne hc
  refine ⟨?_, fun x => (hkept x).trans (hassigned x)⟩
  simpa using hwith.trans hne hfilled

theorem isSome_relations?_of_requireClass {c : ClassBody} (h : a.requireClass id = .ok c) :
    (a.relations? id).isSome = true := by
  rw [relations?, class?_of_requireClass h]
  rfl

theorem mergeCategory_cases {extended category : EntityId} (hne : extended ≠ category)
    (h : a.mergeCategory extended category = .ok merged) :
    merged.value = a ∨
    Redirects a merged.value extended category
      (if a.isExtension category then a.bases category else []) ∧
      ∀ x, merged.value.categoryOf x =
        if category.slot = x.slot then some extended else a.categoryOf x := by
  rcases mergeCategory_eq_or h with heq | ⟨_, c, isLocal, htarget, hc, heq⟩ <;> rw [heq]
  · exact .inl rfl
  · exact .inr (redirects_adopt (isSome_relations?_of_requireClass htarget) hne
      (class?_of_requireClass hc) isLocal)

/-! ## Taking all categories in -/

theorem Agrees.isExtension_eq (h : Agrees (fun e => e.class?.map (·.traits.isExtension)) a b)
    (id : EntityId) : b.isExtension id = a.isExtension id := by
  refine read_of_map_eq h.2 (f := fun x => (x.bind (·.class?)).any (·.traits.isExtension))
    (fun e e' hsame => ?_) id
  have hany := congrArg (Option.any fun x => x) hsame
  rwa [Option.any_map, Option.any_map] at hany

theorem Agrees.standIn_eq (h : Agrees Entity.listing a b) : b.standIn = a.standIn := by
  funext id
  have hof : b.extendedClass id = a.extendedClass id :=
    congrArg (·.getD id) ((h.map Prod.fst).edges_eqs id).2.2
  rw [standIn, (h.map Prod.snd).isExtension_eq, hof, standIn]

/-- Some categories have been taken in since `a`. Classes are listed by their bases where they were,
but for extensions that have given way. -/
structure HasTakenIn (a b : Atlas) : Prop where
  place : Agrees Entity.place a b
  categories : ∀ x extended, b.categoryOf x = some extended → a.extendee? x = some extended
  bases : ∀ x, (a.entity? x).map (·.kind) = some .category → b.bases x = a.bases x
  grows : ∀ x, a.bases x ⊆ b.bases x
  derived : ∀ x, 0 < x.number →
    (b.derived x).map (·.target) = (a.derived x).map fun edge => b.standIn edge.target

namespace HasTakenIn

theorem start (h : ∀ x, a.categoryOf x = none) : a.HasTakenIn a where
  place := .refl _ a
  categories x extended hx := by rw [h] at hx; cases hx
  bases x _ := rfl
  grows x := fun _ hedge => hedge
  derived x _ := by
    have hstandIn (id : EntityId) : a.standIn id = id := by
      have hextended : a.extendedClass id = id := congrArg (·.getD id) (h id)
      rw [standIn, hextended, ite_self]
    simp only [hstandIn]

theorem standIn_ne (h : a.HasTakenIn b) {category : EntityId}
    (hcategory : (a.entity? category).map (·.kind) = some .category) (hx : x ≠ category) :
    b.standIn x ≠ category := by
  unfold standIn
  split
  · have hread : b.extendedClass x = (b.categoryOf x).getD x := rfl
    rw [hread]
    cases hof : b.categoryOf x with
    | none => exact hx
    | some extended =>
      rintro rfl
      exact (kinds_of_extendee? (h.categories x _ hof)).2 hcategory
  · exact hx

variable {c : Atlas} {extended category : EntityId}

/-- When an extension is taken in, it gives way wherever it is listed: all bases that list it are
among those it had from the start. -/
theorem targets_redirect (ha : a.IsPaired) (h : a.HasTakenIn b) (hpos : 0 < category.number)
    (hcategory : (a.entity? category).map (·.kind) = some .category)
    (hredirects : Redirects b c extended category
      (if b.isExtension category then b.bases category else [])) (hx : 0 < x.number) :
    (c.derived x).map (·.target) = ((b.derived x).map (·.target)).map fun y =>
      if b.isExtension category ∧ y = category then extended else y := by
  rw [hredirects.derived]
  cases b.isExtension category with
  | false => simp
  | true =>
    simp only [if_true, true_and, h.bases category hcategory]
    split
    · exact targets_retarget category extended (b.derived x)
    -- No base of the category leads to `x`, so `x` lists it neither by itself nor for another one.
    · next hgiven =>
      have habsent : ∀ y ∈ (b.derived x).map (·.target), y ≠ category := by
        rintro y hy rfl
        rw [h.derived x hx, List.mem_map] at hy
        obtain ⟨edge, hedge, htarget⟩ := hy
        by_cases hsame : edge.target = y
        · obtain ⟨base, hbase, rfl⟩ := ha.exists_base hpos hx ⟨edge, hedge, hsame⟩
          exact hgiven ⟨base, hbase, rfl⟩
        · exact h.standIn_ne hcategory hsame htarget
      rw [List.map_congr_left fun y hy => if_neg (habsent y hy), List.map_id']

/-- One more extension is redirected to the class that it extends. -/
theorem standIn_redirect (h : a.HasTakenIn b) (hpos : 0 < category.number)
    (hextendee : a.extendee? category = some extended) (hplace : Agrees Entity.place b c)
    (hassigned : ∀ x, c.categoryOf x =
      if category.slot = x.slot then some extended else b.categoryOf x) (hx : 0 < x.number) :
    c.standIn x = if b.isExtension category ∧ b.standIn x = category then extended
      else b.standIn x := by
  have hstandIn (atlas : Atlas) : atlas.standIn x =
      if atlas.isExtension x then (atlas.categoryOf x).getD x else x := rfl
  have hextension : c.isExtension x = b.isExtension x :=
    (hplace.map Place.isExtension?).isExtension_eq x
  by_cases hsame : x = category
  · subst hsame
    rw [hstandIn c, hextension, hassigned, hstandIn b]
    cases b.isExtension x with
    | false => simp
    | true =>
      cases hof : b.categoryOf x with
      | none => simp
      -- Taken in for the second time, it gives way to the same class.
      | some old =>
        have hold : some old = some extended := (h.categories x old hof).symm.trans hextendee
        cases hold
        simp
  · have hslot : category.slot ≠ x.slot := fun heq => hsame (EntityId.eq_of_slot hpos hx heq).symm
    have hkept : ¬(b.isExtension category ∧ b.standIn x = category) := fun heq =>
      h.standIn_ne (kinds_of_extendee? hextendee).1 hsame heq.2
    rw [if_neg hkept, hstandIn c, hextension, hassigned, if_neg hslot, hstandIn b]

theorem mergeCategory (hwired : a.IsWired) (hpaired : a.IsPaired) (h : a.HasTakenIn b)
    (hpos : 0 < category.number) (hextendee : b.extendee? category = some extended)
    (hmerged : b.mergeCategory extended category = .ok merged) : a.HasTakenIn merged.value := by
  rw [h.place.extendee?_eq] at hextendee
  obtain ⟨hcategory, hextended⟩ := kinds_of_extendee? hextendee
  have hne : extended ≠ category := by
    rintro rfl
    exact hextended hcategory
  rcases mergeCategory_cases hne hmerged with heq | ⟨hredirects, hassigned⟩
  · rwa [heq]
  refine ⟨h.place.trans hredirects.place, fun x other hother => ?_, fun x hx => ?_,
    fun x edge hedge => hredirects.grows x (h.grows x hedge), fun x hx => ?_⟩
  · rw [hassigned] at hother
    split at hother
    · next hslot => rw [← a.extendee?_eq_of_slot hslot, hextendee, hother]
    · exact h.categories x other hother
  · have hslot : extended.slot ≠ x.slot := by
      intro hslot
      rw [a.entity?_eq_of_slot hslot] at hextended
      exact hextended hx
    rw [hredirects.bases, if_neg hslot, List.append_nil, h.bases x hx]
  · rw [targets_redirect hpaired h hpos hcategory hredirects hx, h.derived x hx, List.map_map]
    refine List.map_congr_left fun edge hedge => ?_
    rw [h.standIn_redirect hpos hextendee hredirects.place hassigned
      (hwired.holdsClass_of_mem_edges (.inr hedge)).1]
    rfl

/-- The classes that a base listed when it was linked are in order. Each of them, or what it has
given way to, is listed in its place. -/
theorem exists_listed (hwired : a.IsWired) (hpaired : a.IsPaired) (hsorted : a.IsSorted)
    (h : a.HasTakenIn b) (hid : 0 < id.number) :
    ∃ listed : List EntityId, listed.Pairwise b.InOrder ∧
      (∀ x ∈ listed, 0 < x.number ∧ ∃ edge ∈ b.bases x, edge.target = id) ∧
      (b.derived id).map (·.target) = listed.map b.standIn := by
  have hnames := (h.place.map Place.name).name_eq
  refine ⟨(a.derived id).map (·.target), ?_, fun x hx => ?_, ?_⟩
  · refine List.pairwise_map.mpr ((hsorted id).imp fun {x y} hxy => ?_)
    rwa [InOrder, hnames, hnames]
  · obtain ⟨edge, hedge, rfl⟩ := List.mem_map.mp hx
    have hpos := (hwired.holdsClass_of_mem_edges (.inr hedge)).1
    obtain ⟨base, hbase, htarget⟩ := hpaired.exists_base hpos hid ⟨edge, hedge, rfl⟩
    exact ⟨hpos, base, h.grows _ hbase, htarget⟩
  · rw [h.derived id hid, List.map_map]
    rfl

end HasTakenIn

end Atlas

namespace Build

open Atlas

variable (options : Options) (d : Document)

theorem mergeCategoryOf_cases {owner : Declared}
    (hname : progress.atlas.name owner.1 = owner.2.name) :
    (mergeCategoryOf progress owner).value.atlas = progress.atlas ∨
      ∃ extended merged, progress.atlas.extendee? owner.1 = some extended ∧
        progress.atlas.mergeCategory extended owner.1 = .ok merged ∧
        (mergeCategoryOf progress owner).value.atlas = merged.value := by
  unfold mergeCategoryOf
  dsimp only
  split
  · exact .inl rfl
  · next e he =>
    split
    · exact .inl rfl
    · next hkind =>
      have hkind' : e.kind = .category := by simpa using hkind
      have hname' : e.name = owner.2.name := by
        rw [← hname, Atlas.name, he]
        rfl
      split
      · exact .inl rfl
      · next hparts =>
        split
        · exact .inl rfl
        · next extended hextended =>
          split
          · exact .inl rfl
          · next merged hmerged =>
            refine .inr ⟨extended, merged, ?_, hmerged, rfl⟩
            rw [extendee?, he, Option.bind_some, if_pos hkind', hname', hparts, Option.bind_some,
              hextended]

theorem hasTakenIn_foldlM {a : Atlas} (hwired : a.IsWired) (hpaired : a.IsPaired)
    {declared : List Declared}
    (hdeclared : ∀ owner ∈ declared, a.Holds owner.1 ∧ a.name owner.1 = owner.2.name)
    (h : a.HasTakenIn progress.atlas) :
    a.HasTakenIn (declared.foldlM mergeCategoryOf progress).value.atlas := by
  rw [Noted.value_foldlM]
  refine List.foldlRecOn (motive := fun p : Progress => a.HasTakenIn p.atlas) declared _ h ?_
  intro p hp owner howner
  obtain ⟨hholds, hname⟩ := hdeclared owner howner
  have hname' : p.atlas.name owner.1 = owner.2.name :=
    ((hp.place.map Place.name).name_eq owner.1).trans hname
  rcases mergeCategoryOf_cases hname' with heq | ⟨extended, merged, hextendee, hmerged, heq⟩
  · rwa [heq]
  · rw [heq]
    exact hp.mergeCategory hwired hpaired hholds.1 hextendee hmerged

/-- A build up to where all bases are linked, and no category has been taken in. -/
def linkAll (options : Options) (d : Document) : Noted (Progress × List Declared) := do
  let (progress, declared) ← prepare (.empty options) d
  return (← addBases progress declared, declared)

theorem changes_linkAll : let linked := (linkAll options d).value
    Changes true (.empty options) linked.1.atlas ∧ (∀ x, linked.1.atlas.categoryOf x = none) ∧
      ∀ owner ∈ linked.2,
        linked.1.atlas.Holds owner.1 ∧ linked.1.atlas.name owner.1 = owner.2.name := by
  obtain ⟨hprepared, hdeclared⟩ := isRegistering_prepare options d
  unfold linkAll
  simp only [Noted.value_bind, Noted.value_pure]
  generalize (prepare (.empty options) d).value = prepared at hprepared hdeclared
  have hlinked := (addBases_kept_of_isWired (P := fun _ => True) (hprepared.isWired (.empty options))
    (fun owner howner => (hdeclared owner howner).1) trivial fun _ _ _ _ _ _ => trivial).1
  have hchanges : Changes true (.empty options) (addBases prepared.1 prepared.2).value.atlas :=
    hprepared.trans hlinked
  refine ⟨hchanges, fun x => ?_, fun owner howner => ?_⟩
  · rw [hchanges.categoryOf_eq]
    exact (edges_of_size_le (a := .empty options) (Nat.zero_le x.slot)).2.2
  · obtain ⟨hholds, hname⟩ := hdeclared owner howner
    exact ⟨hholds.mono hlinked.size_le, (hlinked.name_eq hholds).trans hname⟩

/-- Then categories are taken in. What follows leaves the lists of bases and of derived classes
alone. -/
theorem agrees_listing_run : let linked := (linkAll options d).value
    Agrees Entity.listing (linked.2.foldlM mergeCategoryOf linked.1).value.atlas
      (run options d).value.1 := by
  unfold run linkAll
  rw [extend, assemble]
  simp only [Noted.value_bind, Noted.value_pure]
  exact (KeepsView.foldlM (keepsView_addUsings Entity.listing_modifyNamespace) _ _).1.trans
    (agrees_finish Entity.listing_modifyNamespace Entity.listing_skeleton _)

theorem exists_listed_run (hid : 0 < id.number) : let a := (run options d).value.1
    ∃ listed : List EntityId, listed.Pairwise a.InOrder ∧
      (∀ x ∈ listed, 0 < x.number ∧ ∃ edge ∈ a.bases x, edge.target = id) ∧
      (a.derived id).map (·.target) = listed.map a.standIn := by
  obtain ⟨hchanges, hnone, hdeclared⟩ := changes_linkAll options d
  have hwired := hchanges.isWired (.empty options)
  have hpaired := hchanges.isPaired (.empty options)
  have htaken := hasTakenIn_foldlM hwired hpaired hdeclared (.start hnone)
  have hagrees := agrees_listing_run options d
  have hedges := (hagrees.map Prod.fst).edges_eqs
  have hnames := (hagrees.map fun listing => listing.1.name).name_eq
  obtain ⟨listed, hpairwise, hbased, htargets⟩ := htaken.exists_listed hwired hpaired
    (hchanges.isSorted (.empty options) (.empty options)) hid
  refine ⟨listed, hpairwise.imp fun {x y} hxy => ?_, fun x hx => ?_, ?_⟩
  · rwa [InOrder, hnames, hnames]
  · rw [(hedges x).1]
    exact hbased x hx
  · rw [(hedges id).2.1, hagrees.standIn_eq, htargets]

/-- In the atlas that a build ends with, the derived classes of a class are listed in order of
lower-cased names, and of numbers where these are the same, but for extensions: where one was listed
under its own name, there is now the class that it extends. A list is in order if none of its classes
is there for an extension. -/
theorem derived_order_run (options : Options) (d : Document) :
    let a := (run options d).value.1
    ∀ id, a.HoldsClass id →
      (∃ listed : List EntityId, listed.Pairwise a.InOrder ∧
        (∀ x ∈ listed, ∃ edge ∈ a.bases x, edge.target = id) ∧
        (a.derived id).map (·.target) = listed.map a.standIn) ∧
      ((∀ x ∈ a.classIds, a.standIn x ≠ x → ∀ edge ∈ a.derived id, edge.target ≠ a.standIn x) →
        (a.derived id).Pairwise fun x y => a.InOrder x.target y.target) := by
  intro a id hid
  obtain ⟨listed, hpairwise, hbased, htargets⟩ := exists_listed_run options d hid.1
  refine ⟨⟨listed, hpairwise, fun x hx => (hbased x hx).2, htargets⟩, fun hnone => ?_⟩
  -- A class that has given way would be listed as the one it gave way to.
  have hkept : ∀ x ∈ listed, a.standIn x = x := by
    intro x hx
    obtain ⟨hpos, base, hbase, -⟩ := hbased x hx
    obtain ⟨edge, hedge, htarget⟩ : ∃ edge ∈ a.derived id, edge.target = a.standIn x := by
      rw [← List.mem_map, htargets]
      exact List.mem_map_of_mem hx
    have hclass : x ∈ a.classIds := by
      refine ((isSound_run options d).isNumbered.mem_classIds_iff x).mpr ⟨hpos.ne', ?_⟩
      unfold Atlas.bases at hbase
      cases hc : (run options d).value.1.class? x with
      | none => simp [hc] at hbase
      | some c => rfl
    by_contra hne
    exact hnone x hclass hne edge hedge htarget
  rw [← List.pairwise_map, htargets, List.map_congr_left hkept, List.map_id']
  exact hpairwise

/-- A helper has a class as its base, and so has an extension, whose own name comes after that of the
helper. The name of the class that is extended comes before it. Two more classes are derived from
another one. -/
def misplaced : Document where
  entities :=
    [{ name := "Base", kind := "class" },
     { name := "Alpha", kind := "class" },
     { name := "Alpha$Helper", kind := "class", bases := [.plain "Base"] },
     { name := "Alpha()", kind := "category", bases := [.plain "Base"] },
     { name := "Root", kind := "class" },
     { name := "Twig", kind := "class", bases := [.plain "Root"] },
     { name := "branch", kind := "class", bases := [.plain "Root"] }]

/-- No extension has the second base: its derived classes are in order, whatever the case of their
names. -/
theorem derived_order_run_misplaced :
    let a := (run {} misplaced).value.1
    a.HoldsClass ⟨5⟩ ∧
      (∀ x ∈ a.classIds, a.standIn x ≠ x → ∀ edge ∈ a.derived ⟨5⟩, edge.target ≠ a.standIn x) ∧
      a.standIn ⟨4⟩ = ⟨2⟩ ∧ (a.derived ⟨5⟩).map (·.target) = [⟨7⟩, ⟨6⟩] ∧
      ((∃ listed : List EntityId, listed.Pairwise a.InOrder ∧
        (∀ x ∈ listed, ∃ edge ∈ a.bases x, edge.target = ⟨5⟩) ∧
        (a.derived ⟨5⟩).map (·.target) = listed.map a.standIn) ∧
      (a.derived ⟨5⟩).Pairwise fun x y => a.InOrder x.target y.target) := by
  intro a
  have hholds : a.HoldsClass ⟨5⟩ :=
    (a.holdsClass_and_class? ⟨5⟩ (by decide) (by decide +kernel)).1
  obtain ⟨hlisted, hordered⟩ := derived_order_run {} misplaced ⟨5⟩ hholds
  refine ⟨hholds, ?hnone, ?hstandIn, ?htargets, hlisted, hordered ?hnone⟩
  all_goals decide +kernel

/-- The extended class has the place of its extension and comes after the helper. -/
theorem derived_out_of_order :
    let a := (run {} misplaced).value.1
    a.HoldsClass ⟨1⟩ ∧ (a.derived ⟨1⟩).map (·.target) = [⟨3⟩, ⟨2⟩] ∧
      ¬ (a.derived ⟨1⟩).Pairwise fun x y => a.InOrder x.target y.target := by
  intro a
  refine ⟨(a.holdsClass_and_class? ⟨1⟩ (by decide) (by decide +kernel)).1, by decide +kernel, ?_⟩
  decide +kernel

end Build

end SymbolAtlas
