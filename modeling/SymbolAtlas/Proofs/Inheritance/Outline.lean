import SymbolAtlas.Proofs.Atlas.Frame

/-!
# What inheritance reads

Taking over members reads the members, the options, and of each entity only its outline: not its
sections, and not what a class has taken over already. Atlases with the same outlines inherit alike.
-/

set_option autoImplicit false

namespace SymbolAtlas

/-- What inheritance reads of an entity besides its roster. -/
structure Outline where
  id : EntityId
  name : String
  kind : EntityKind
  separator : String
  /-- The base edges; none for a namespace. -/
  bases : Option (List BaseEdge)

/-- The outline of an entity. -/
def Entity.outline (e : Entity) : Outline where
  id := e.id
  name := e.name
  kind := e.kind
  separator := e.separator
  bases := e.class?.map (·.bases)

/-- Two atlases with the same members, options and outlines. -/
structure Atlas.Resembles (a b : Atlas) : Prop where
  members : a.members = b.members
  options : a.options = b.options
  outlines : a.entities.map Entity.outline = b.entities.map Entity.outline

namespace Atlas.Resembles

variable {a b c : Atlas}

theorem refl (a : Atlas) : a.Resembles a :=
  ⟨rfl, rfl, rfl⟩

theorem symm (h : a.Resembles b) : b.Resembles a :=
  ⟨h.members.symm, h.options.symm, h.outlines.symm⟩

theorem trans (h : a.Resembles b) (h' : b.Resembles c) : a.Resembles c :=
  ⟨h.members.trans h'.members, h.options.trans h'.options, h.outlines.trans h'.outlines⟩

theorem modifyEntity (a : Atlas) (id : EntityId) {f : Entity → Entity}
    (hf : ∀ e, (f e).outline = e.outline) : (a.modifyEntity id f).Resembles a :=
  ⟨rfl, rfl, a.map_modifyEntity id hf⟩

section

variable (h : a.Resembles b) (id : EntityId)

include h

theorem size : a.entities.size = b.entities.size :=
  size_of_map_eq h.outlines

theorem map_eq {β : Type} (g : Outline → β) (id : EntityId) :
    (a.entity? id).map (fun e => g e.outline) = (b.entity? id).map (fun e => g e.outline) :=
  read_of_map_eq h.outlines (f := Option.map fun e => g e.outline)
    (fun _ _ hsame => congrArg (fun o => some (g o)) hsame) id

theorem member? (id : MemberId) : a.member? id = b.member? id := by
  rw [Atlas.member?, Atlas.member?, h.members]

theorem name : a.name id = b.name id :=
  congrArg (·.getD "") (h.map_eq Outline.name id)

theorem separator : a.separator id = b.separator id :=
  congrArg (·.getD "::") (h.map_eq Outline.separator id)

theorem isSome_class? : (a.class? id).isSome = (b.class? id).isSome := by
  refine read_of_map_eq h.outlines (f := fun x => (x.bind (·.class?)).isSome) (fun e e' hsame => ?_) id
  simpa [Entity.outline] using congrArg (fun o => o.bases.isSome) hsame

theorem bases : a.bases id = b.bases id :=
  read_of_map_eq h.outlines (f := fun x => ((x.bind (·.class?)).map ClassBody.bases).getD [])
    (fun _ _ hsame => congrArg (fun o => o.bases.getD []) hsame) id

theorem entityNumbers : a.entityNumbers = b.entityNumbers := by
  rw [Atlas.entityNumbers, Atlas.entityNumbers, h.size]

theorem baseGraph : a.baseGraph true = b.baseGraph true := by
  unfold Atlas.baseGraph
  rw [h.entityNumbers]
  congr 1
  funext id
  rw [h.bases]
  rfl

theorem classIds : a.classIds = b.classIds := by
  have hread (c : Atlas) : c.classIds =
      (((c.entities.map Entity.outline).toList.filter (·.bases.isSome)).map (·.id)) := by
    unfold Atlas.classIds
    rw [Array.toList_map, List.filter_map, List.map_map]
    congr 2
    funext e
    simp [Entity.isClass, Entity.outline]
  rw [hread a, hread b, h.outlines]

theorem namespaceIds : a.namespaceIds = b.namespaceIds := by
  have hread (c : Atlas) : c.namespaceIds =
      (((c.entities.map Entity.outline).toList.filter (·.bases.isNone)).map (·.id)) := by
    unfold Atlas.namespaceIds
    rw [Array.toList_map, List.filter_map, List.map_map]
    congr 2
    funext e
    unfold Entity.isNamespace Entity.outline Entity.namespace? Entity.class?
    cases he : e.body <;> simp [he]
  rw [hread a, hread b, h.outlines]

theorem isNumbered (hb : b.IsNumbered) : a.IsNumbered := by
  intro slot hslot
  have hslot' : slot < b.entities.size := h.size ▸ hslot
  have hid := h.map_eq Outline.id (.ofSlot slot)
  unfold entity? at hid
  rw [EntityId.slot_ofSlot, Array.getElem?_eq_getElem hslot,
    Array.getElem?_eq_getElem hslot'] at hid
  exact (Option.some.inj hid).trans (hb slot hslot')

end

/-! ## Taking over members -/

variable (h : a.Resembles b) (passage : Passage) (state : List View × Inlined) (incoming : View)

include h

theorem meets (target : EntityId) (steps : List (Step EntityId)) :
    a.meets target steps = b.meets target steps := by
  induction steps with
  | nil => rfl
  | cons step rest ih =>
    simp only [Atlas.meets, h.name, ih]

theorem isBase (derived base : EntityId) :
    a.isBase derived base true = b.isBase derived base true := by
  unfold Atlas.isBase Atlas.reaches
  rw [h.baseGraph, h.options, h.meets]

theorem isOwnedBelow (present incoming : Member) :
    a.isOwnedBelow present incoming = b.isOwnedBelow present incoming := by
  unfold Atlas.isOwnedBelow
  simp only [h.isBase]

theorem isInterface (owner : Option EntityId) :
    (owner.bind a.entity?).any (fun e => e.kind == .interface) =
      (owner.bind b.entity?).any fun e => e.kind == .interface := by
  cases owner with
  | none => rfl
  | some owner =>
    exact read_of_map_eq h.outlines (f := Option.any fun e => e.kind == .interface)
      (fun _ _ hsame => congrArg (fun o => o.kind == .interface) hsame) owner

theorem meeting (source : Member) (present : View) (target : Member) :
    a.meeting passage incoming source present target =
      b.meeting passage incoming source present target := by
  unfold Atlas.meeting
  rw [h.isOwnedBelow, h.isInterface]

theorem confront (source : Member) (present : List View) :
    a.confront passage incoming source present = b.confront passage incoming source present := by
  induction present with
  | nil => rfl
  | cons view rest ih =>
    simp only [Atlas.confront, h.member?, h.meeting, ih]

theorem inheritAmong :
    a.inheritAmong passage state incoming = b.inheritAmong passage state incoming := by
  simp only [Atlas.inheritAmong, Atlas.passedAmong, Atlas.inlining, h.member?, h.confront, h.name,
    h.options]

theorem inheritNew : a.inheritNew passage state incoming = b.inheritNew passage state incoming := by
  simp only [Atlas.inheritNew, Atlas.inlining, h.member?, h.options]

theorem inheritName (state : Roster × Inlined) (entry : String × List View) :
    a.inheritName passage state entry = b.inheritName passage state entry := by
  have hamong : a.inheritAmong passage = b.inheritAmong passage := by
    funext state incoming
    exact h.inheritAmong passage state incoming
  have hnew : a.inheritNew passage = b.inheritNew passage := by
    funext state incoming
    exact h.inheritNew passage state incoming
  unfold Atlas.inheritName
  rw [hamong, hnew]

end Atlas.Resembles

end SymbolAtlas
