import SymbolAtlas.Proofs.Atlas.Operations
import SymbolAtlas.Proofs.TagFile.Pages

/-!
# What a tag file tells of an atlas

The tag file of an atlas is read back page by page: first the namespaces that have a page in the
project, then the classes that have one and are not instances of a template, by name and, where
names are the same, by number. Each page comes with its template parameters, the bases and inner
entities that can be linked to, and the members with an anchor in the order of their sections.

The type of a member is told unless it begins with `@`, which is how the types of anonymous entities
begin. Namespaces and instances of templates inside a class are not told.
-/

set_option autoImplicit false

namespace SymbolAtlas.TagFile

open Markup

variable (a : Atlas) (e : Entity) (id : EntityId)

/-! ## The pages of an atlas -/

/-- What is told of a member. -/
def memberTag (a : Atlas) (id : MemberId) (m : Member) : MemberTag where
  kind := (if m.flags.isFriend then "friend" else "") ++ m.kind.name
  protection := if m.protection = .pub then none else some m.protection.name
  virtualness := if m.virtualness.isNormal then none else some m.virtualness.name
  static := if m.flags.isStatic then some "yes" else none
  typeText := if m.typeText.toList.head? = some '@' then none else some m.typeText
  name := m.name
  anchorFile := (m.owner.map a.fileBase).getD "" ++ a.options.htmlFileExtension
  anchor := a.anchor id
  args := m.argsText

/-- What is told of the members under some sections of an entity: of those with an anchor, section
by section. -/
def memberTags (a : Atlas) (id : EntityId) (sections : List Section) : List MemberTag :=
  sections.flatMap fun s =>
    ((a.sectionMembers id s).filter a.isMemberLinkable).filterMap fun id =>
      (a.member? id).map (memberTag a id)

/-- What is told of a base. -/
def baseTag (a : Atlas) (edge : BaseEdge) : BaseTag where
  protection :=
    if edge.protection = .prot then some "protected"
    else if edge.protection = .priv then some "private"
    else none
  virtualness := if edge.virtualness = .virtual then some "virtual" else none
  name := a.name edge.target

/-- The page of a namespace. -/
def namespacePage (a : Atlas) (e : Entity) : Page where
  kind := e.kindWord
  name := e.name
  fileName := a.fileBase e.id ++ a.options.htmlFileExtension
  inner :=
    (e.innerNamespaces.filter a.isLinkableHere).map (fun id => .ofNamespace (a.name id))
      ++ (e.innerClasses.filter a.isLinkableHere).map fun id => .ofClass (a.kindWord id) (a.name id)
  members := memberTags a e.id Section.namespaceDeclarations

/-- The page of a class. -/
def classPage (a : Atlas) (e : Entity) : Page where
  kind := if e.kindWord = "type" ∧ e.language = .fortran then "struct" else e.kindWord
  objc := if e.language = .objc then some "yes" else none
  name := e.name
  fileName := a.fileBase e.id ++ a.options.htmlFileExtension
  formals := ((e.class?.map (·.formals)).getD []).map fun formal =>
    if formal.name = "" then formal.typeText else formal.typeText ++ " " ++ formal.name
  bases := (((e.class?.map (·.bases)).getD []).filter fun edge => a.isLinkable edge.target).map
    (baseTag a)
  inner :=
    (e.innerClasses.filter fun id =>
      a.isLinkableHere id && !(a.entity? id).any (·.isTemplateInstance)).map
      fun id => .ofClass (a.kindWord id) (a.name id)
  members := memberTags a e.id Section.classDeclarations

/-- The order of the pages. -/
def Precedes (e e' : Entity) : Prop :=
  e.name < e'.name ∨ e.name = e'.name ∧ e.id.number < e'.id.number

/-- The entities with a property, in the order of their pages. -/
structure Lists (a : Atlas) (p : Entity → Bool) (es : List Entity) : Prop where
  mem_iff : ∀ e, e ∈ es ↔ e ∈ a.entities ∧ p e = true
  ordered : es.Pairwise Precedes

/-! ## The order of the pages -/

/-- How names are compared for the order of the pages. -/
def isNamedBefore (e e' : Entity) : Bool :=
  decide (e.name ≤ e'.name)

theorem isNamedBefore_trans (e₁ e₂ e₃ : Entity) (h : isNamedBefore e₁ e₂ = true)
    (h' : isNamedBefore e₂ e₃ = true) : isNamedBefore e₁ e₃ = true :=
  decide_eq_true (String.le_trans (of_decide_eq_true h) (of_decide_eq_true h'))

theorem isNamedBefore_total (e e' : Entity) :
    (isNamedBefore e e' || isNamedBefore e' e) = true := by
  rw [Bool.or_eq_true]
  exact (String.le_total e.name e'.name).imp decide_eq_true decide_eq_true

theorem filter_mergeSort_name (es : List Entity) (name : String) :
    (es.mergeSort isNamedBefore).filter (·.name == name) = es.filter (·.name == name) := by
  have hsame : (es.filter (·.name == name)).Pairwise fun e e' => isNamedBefore e e' = true := by
    refine List.pairwise_filter.mpr (List.pairwise_of_forall fun e e' he he' => ?_)
    exact decide_eq_true (beq_iff_eq.mp he ▸ beq_iff_eq.mp he' ▸ String.le_refl _)
  have hsub := (List.sublist_mergeSort isNamedBefore_trans isNamedBefore_total hsame
    List.filter_sublist).filter (·.name == name)
  rw [List.filter_filter] at hsub
  simp only [Bool.and_self] at hsub
  -- The entities of that name are as many as before, so there are no others among them.
  exact (hsub.eq_of_length ((List.mergeSort_perm es isNamedBefore).filter _).length_eq.symm).symm

theorem pairwise_precedes_mergeSort {es : List Entity}
    (h : es.Pairwise fun e e' => e.id.number < e'.id.number) :
    (es.mergeSort isNamedBefore).Pairwise Precedes := by
  refine List.pairwise_iff_forall_sublist.mpr fun {e e'} hsub => ?_
  have hle : e.name ≤ e'.name := of_decide_eq_true (List.pairwise_iff_forall_sublist.mp
    (List.pairwise_mergeSort isNamedBefore_trans isNamedBefore_total es) hsub)
  by_cases hname : e.name = e'.name
  · have hkept := hsub.filter (·.name == e'.name)
    rw [filter_mergeSort_name, List.filter_cons_of_pos (by simp [hname]),
      List.filter_cons_of_pos (by simp)] at hkept
    exact .inr ⟨hname, List.pairwise_iff_forall_sublist.mp h (hkept.trans List.filter_sublist)⟩
  · exact .inl (String.not_le.mp fun hge => hname (String.le_antisymm hle hge))

theorem pairwise_number {a : Atlas} (h : a.IsNumbered) :
    a.entities.toList.Pairwise fun e e' => e.id.number < e'.id.number := by
  refine List.pairwise_iff_getElem.mpr fun i j hi hj hij => ?_
  rw [Array.getElem_toList, Array.getElem_toList, h i hi, h j hj]
  exact Nat.succ_lt_succ hij

theorem lists_sortedEntities {a : Atlas} (h : a.IsNumbered) (p : Entity → Bool) :
    Lists a p (sortedEntities a p) where
  mem_iff e := by
    unfold sortedEntities
    rw [List.mem_mergeSort, List.mem_filter, Array.mem_toList_iff]
  ordered := pairwise_precedes_mergeSort ((pairwise_number h).sublist List.filter_sublist)

/-! ## What is listed can be read -/

theorem isPlain_kindWord : isPlain e.kindWord = true := by
  have hname (kind : EntityKind) : isPlain kind.name = true := by cases kind <;> rfl
  unfold Entity.kindWord
  split
  · cases e.kind <;> rfl
  · split
    · split <;> rfl
    · split <;> rfl
    · rfl
    · exact hname _

theorem isPlain_atlas_kindWord : isPlain (a.kindWord id) = true := by
  unfold Atlas.kindWord
  cases a.entity? id with
  | none => rfl
  | some e => exact isPlain_kindWord e

theorem isReadable_innerClass (ids : List EntityId) :
    (ids.map (innerClass a)).all Inner.isReadable = true := by
  simp [innerClass, Inner.isReadable, isPlain_atlas_kindWord]

theorem isReadable_ofNamespace : (ofNamespace a e).isReadable = true := by
  unfold ofNamespace Compound.isReadable
  rw [List.all_append, isReadable_innerClass, isPlain_kindWord]
  simp [Inner.isReadable]

theorem isReadable_ofClass (c : ClassBody) : (ofClass a e c).isReadable = true := by
  have hkind : isPlain (ofClass a e c).kind = true := by
    unfold ofClass
    split
    · exact show isPlain "struct" = true from rfl
    · exact isPlain_kindWord e
  rw [Compound.isReadable, hkind]
  exact isReadable_innerClass a _

/-! ## What is listed is what is told -/

theorem isPrefixOf_at_iff (text : List Char) :
    ['@'].isPrefixOf text = true ↔ text.head? = some '@' := by
  cases text with
  | nil => simp
  | cons c text => simpa [List.isPrefixOf] using eq_comm

theorem map_tag_listing? (id : MemberId) : (listing? a id).map Entry.tag =
      if a.isMemberLinkable id = true then (a.member? id).map (memberTag a id) else none := by
  unfold listing?
  cases a.member? id with
  | none => exact (ite_self _).symm
  | some m =>
    dsimp only
    split
    · unfold memberTag
      simp only [← isPrefixOf_at_iff]
      rfl
    · rfl

theorem map_tag_entries (sections : List Section) :
    (entries a id sections).map Entry.tag = memberTags a id sections := by
  unfold entries memberTags
  rw [List.filterMap_flatMap, List.map_flatMap]
  simp only [List.map_filterMap, map_tag_listing?, List.filterMap_filter]

theorem page_ofNamespace : (ofNamespace a e).page = namespacePage a e := by
  unfold Compound.page namespacePage
  rw [← map_tag_entries]
  rfl

theorem isListedInside_eq :
    isListedInside a id = (a.isLinkableHere id && !(a.entity? id).any (·.isTemplateInstance)) := by
  unfold isListedInside Atlas.isLinkableHere Atlas.pageOwner?
  cases a.entity? id with
  | none => rfl
  | some e =>
    cases hmaster : e.templateMaster with
    | some master => simp [Entity.isTemplateInstance, hmaster]
    | none =>
      cases hshown : a.options.shows e.protection <;>
        simp [Entity.isTemplateInstance, hmaster, Atlas.hasPage, hshown]

theorem page_ofClass {e : Entity} {c : ClassBody} (hc : e.class? = some c) :
    (ofClass a e c).page = classPage a e := by
  have hinside : isListedInside a =
      fun id => a.isLinkableHere id && !(a.entity? id).any (·.isTemplateInstance) :=
    funext (isListedInside_eq a)
  have hinner : innerClass a = fun id => .ofClass (a.kindWord id) (a.name id) := rfl
  unfold Compound.page classPage
  rw [← map_tag_entries, ← hinside, ← hinner, hc]
  simp [ofClass, Function.comp_def, formalText, baseTag, Base.tag]

/-- The pages of what is listed are those that the atlas has. -/
theorem map_page_compounds : (compounds a).map Compound.page =
      (sortedEntities a fun e => e.isNamespace && a.isLinkableHere e.id).map (namespacePage a)
        ++ (sortedEntities a fun e =>
          e.isClass && !e.isTemplateInstance && a.isLinkableHere e.id).map (classPage a) := by
  unfold compounds
  rw [List.map_append, List.map_map, List.map_filterMap]
  congr 1
  · exact List.map_congr_left fun e _ => page_ofNamespace a e
  · refine List.filterMap_eq_map_iff_forall_eq_some.mpr fun e he => ?_
    have hclass : e.class?.isSome = true := by
      have hp := (List.mem_filter.mp (List.mem_mergeSort.mp he)).2
      simp only [Bool.and_eq_true] at hp
      exact hp.1.1
    obtain ⟨c, hc⟩ := Option.isSome_iff_exists.mp hclass
    rw [hc, Option.map_some, Option.map_some, page_ofClass a hc]

/-- The tag file of an atlas is read back. -/
theorem readPages_render (a : Atlas) (h : a.IsNumbered) :
    ∃ namespaces classes : List Entity,
      Lists a (fun e => e.isNamespace && a.isLinkableHere e.id) namespaces ∧
      Lists a (fun e => e.isClass && !e.isTemplateInstance && a.isLinkableHere e.id) classes ∧
      readPages (render a) =
        some (namespaces.map (namespacePage a) ++ classes.map (classPage a)) := by
  have hreadable : ∀ c ∈ compounds a, c.isReadable = true := by
    intro c hc
    rcases List.mem_append.mp hc with hc | hc
    · obtain ⟨e, -, rfl⟩ := List.mem_map.mp hc
      exact isReadable_ofNamespace a e
    · obtain ⟨e, -, he⟩ := List.mem_filterMap.mp hc
      obtain ⟨body, -, rfl⟩ := Option.map_eq_some_iff.mp he
      exact isReadable_ofClass a e body
  refine ⟨_, _, lists_sortedEntities h _, lists_sortedEntities h _, ?_⟩
  rw [render, readPages_renderCompounds hreadable, map_page_compounds]

/-- A namespace and a class template in it, with names and texts that are full of markup. -/
def workshop : Atlas :=
  Operation.performAll (.empty { htmlFileExtension := ".<x>&" })
    [.register "a&b" .namespaceKind {}, .register "a&b::\"Press\"<T>" .classKind {},
      .setOuter ⟨2⟩ ⟨1⟩, .setFormals ⟨2⟩ ["Box<T> *p"],
      .addMember (some ⟨2⟩) {
        name := "operator<"
        kind := .function
        typeText := "Map<K, V> &"
        argsText := "(const 'x' &&)" },
      .insertMember ⟨2⟩ ⟨1⟩]

theorem readPages_render_workshop :
    workshop.IsNumbered ∧ workshop.isLinkableHere ⟨1⟩ = true ∧
    workshop.isLinkableHere ⟨2⟩ = true ∧ workshop.isMemberLinkable ⟨1⟩ = true ∧
    ∃ namespaces classes : List Entity,
      Lists workshop (fun e => e.isNamespace && workshop.isLinkableHere e.id) namespaces ∧
      Lists workshop (fun e =>
        e.isClass && !e.isTemplateInstance && workshop.isLinkableHere e.id) classes ∧
      readPages (render workshop) =
        some (namespaces.map (namespacePage workshop) ++ classes.map (classPage workshop)) := by
  have hnumbered : workshop.IsNumbered := by decide +kernel
  exact ⟨hnumbered, by decide +kernel, by decide +kernel, by decide +kernel,
    readPages_render workshop hnumbered⟩

/-! ## What is not told -/

/-- A class with a member of some type. -/
def gear (type : String) : Atlas :=
  Operation.performAll (.empty {})
    [.register "Gear" .classKind {},
      .addMember (some ⟨1⟩) { name := "teeth", kind := .variableKind, typeText := type },
      .insertMember ⟨1⟩ ⟨1⟩]

/-- A template, an instance of it and a namespace, with one of these inside the template. -/
def casing (inner : EntityId) : Atlas :=
  Operation.performAll (.empty {})
    [.register "Casing" .classKind {}, .setFormals ⟨1⟩ ["class T"], .instantiate 1 "<int>",
      .register "bolts" .namespaceKind {}, .setOuter inner ⟨1⟩]

/-- The entities inside another one that have a page. -/
def linkableInside (a : Atlas) (id : EntityId) : List EntityId :=
  ((a.entity? id).map fun e =>
    (e.innerNamespaces ++ e.innerClasses).filter a.isLinkableHere).getD []

/-- No reader can tell two types that begin with `@` from each other, nor an instance of a template
inside a class from a namespace inside it. -/
theorem render_gear_casing :
    (∀ type ∈ ["@1", "@2"], ((gear type).member? ⟨1⟩).map (·.typeText) = some type ∧
      (gear type).isMemberLinkable ⟨1⟩ = true) ∧
    render (gear "@1") = render (gear "@2") ∧
    (∀ inner ∈ [⟨2⟩, ⟨3⟩], linkableInside (casing inner) ⟨1⟩ = [inner]) ∧
    render (casing ⟨2⟩) = render (casing ⟨3⟩) := by
  have hgear : compounds (gear "@1") = compounds (gear "@2") := by decide +kernel
  have hcasing : compounds (casing ⟨2⟩) = compounds (casing ⟨3⟩) := by decide +kernel
  exact ⟨by decide +kernel, congrArg renderCompounds hgear, by decide +kernel,
    congrArg renderCompounds hcasing⟩

end SymbolAtlas.TagFile
