import SymbolAtlas.Proofs.Inheritance.Order

/-!
# Merging solves a recursion

The merged atlas can be told without any order: every class takes over the rosters that its bases
have in the merged atlas itself. Without cycles there is exactly one atlas of which that is true,
and merging ends in it, whichever classes are merged first.
-/

set_option autoImplicit false

namespace SymbolAtlas.Atlas

variable {a b : Atlas} {id : EntityId} {goal : Atlas}

/-- No class is merged yet. -/
def IsFresh (a : Atlas) : Prop :=
  ∀ e ∈ a.entities, (e.class?.all fun c => !c.isMerged) = true

instance (a : Atlas) : Decidable a.IsFresh :=
  inferInstanceAs (Decidable (∀ e ∈ a.entities, (e.class?.all fun c => !c.isMerged) = true))

/-- What merging asks of an atlas: nothing is merged yet, and inheritance has no cycles and is not
too deep. -/
structure IsMergeable (a : Atlas) : Prop where
  isNumbered : a.IsNumbered
  isFresh : a.IsFresh
  isAcyclic : a.IsAcyclic
  isWithinDepth : a.IsWithinDepth

theorem IsMergeable.of_earlier (hnumbered : a.IsNumbered) (hfresh : a.IsFresh)
    (hearlier : ∀ slot, slot < a.entities.size → ∀ edge ∈ a.bases (.ofSlot slot),
      edge.target.slot < slot) (hsize : a.entities.size ≤ a.options.maxInheritanceDepth + 1) :
    a.IsMergeable :=
  ⟨hnumbered, hfresh, isAcyclic_of_earlier hearlier, isWithinDepth_of_earlier hearlier hsize⟩

/-- The atlas after requests to merge single classes. A request that is refused changes nothing. -/
def mergeEach (a : Atlas) (requests : List EntityId) : Atlas :=
  requests.foldl
    (fun a id =>
      match a.mergeMembers id with
      | .ok merged => merged.value
      | .error _ => a) a

/-- The atlas with every class of `a` merged, as if the rosters of `b` were those of the bases. -/
def mergedFrom (a b : Atlas) : Atlas :=
  { a with entities := a.entities.map (·.mergedIn b) }

/-! ## Requests -/

theorem mergeFrom_of_class?_eq_none (h : a.class? id = none) : (a.mergeFrom id).value.1 = a := by
  have horder : (a.mergeOrder id).value = [] := by
    unfold mergeOrder isUnmerged
    rw [h]
    rfl
  rw [value_mergeFrom, horder]
  rfl

theorem mergeEach_eq_foldl (a : Atlas) (requests : List EntityId) :
    a.mergeEach requests = requests.foldl (fun a id => (a.mergeFrom id).value.1) a := by
  unfold mergeEach
  congr 1
  funext a id
  unfold mergeMembers requireClass
  cases he : a.entity? id with
  | none => exact (mergeFrom_of_class?_eq_none (by simp [class?, he])).symm
  | some e =>
    cases hbody : e.class? with
    | none =>
      simp only [hbody]
      exact (mergeFrom_of_class?_eq_none (by simp [class?, he, hbody])).symm
    | some c =>
      simp only [hbody]
      rfl

theorem mergeAll_mergeEach_eq_foldl (a : Atlas) (requests : List EntityId) :
    (a.mergeEach requests).mergeAll.value.1 =
      (requests ++ a.classIds).foldl (fun a id => (a.mergeFrom id).value.1) a := by
  have hresembles : (a.mergeEach requests).Resembles a := by
    rw [mergeEach_eq_foldl]
    exact foldl_mergeFrom_induction
      (fun b id hb => (b.resembles_mergeFrom id).trans hb) requests (.refl a)
  rw [value_mergeAll, hresembles.classIds, mergeEach_eq_foldl, List.foldl_append]

/-! ## Entities after a merge -/

theorem Resembles.inlining (h : a.Resembles b) : Entity.inlining a = Entity.inlining b := by
  funext e entry
  unfold Entity.inlining
  rw [h.member?, h.options]

theorem map_mergedIn_congr {c : Atlas} (h : b.Resembles c)
    (hrosters : ∀ edge ∈ a.bases id, b.rosterOf edge.target = c.rosterOf edge.target) :
    (a.entity? id).map (·.mergedIn b) = (a.entity? id).map (·.mergedIn c) := by
  cases he : a.entity? id with
  | none => rw [Option.map_none, Option.map_none]
  | some e =>
    rw [Option.map_some, Option.map_some]
    cases hclass : e.class? with
    | none =>
      rw [Entity.mergedIn_of_class?_eq_none hclass, Entity.mergedIn_of_class?_eq_none hclass]
    | some body =>
      have hbases : a.bases id = body.bases := by simp [bases, class?, he, hclass]
      rw [hbases] at hrosters
      rw [Entity.mergedIn_of_class?_eq_some hclass, Entity.mergedIn_of_class?_eq_some hclass,
        h.inlining, takenOver_congr h e.separator body.roster hrosters]

theorem slot_ne_of_isUnmerged {id' : EntityId} (h : a.isUnmerged id = true)
    (h' : a.isUnmerged id' = false) : id.slot ≠ id'.slot := by
  intro hslot
  rw [isUnmerged_congr (a.entity?_eq_of_slot hslot), h'] at h
  cases h

theorem isUnmerged_of_mergedIn {c : Atlas} (h : a.entity? id = (b.entity? id).map (·.mergedIn c)) :
    a.isUnmerged id = false := by
  unfold isUnmerged class?
  rw [h]
  cases b.entity? id with
  | none => rfl
  | some e =>
    cases hclass : (e.mergedIn c).class? with
    | none => simp [hclass]
    | some body => simp [hclass, e.isMerged_mergedIn c body hclass]

theorem map_mergedIn_modifyEntity {u : EntityId} {f : Entity → Entity}
    (hf : ∀ e, (f e).outline = e.outline) (hu : b.isUnmerged u = true)
    (hbases : ∀ edge ∈ a.bases id, b.isUnmerged edge.target = false) :
    (a.entity? id).map (·.mergedIn (b.modifyEntity u f)) = (a.entity? id).map (·.mergedIn b) := by
  refine map_mergedIn_congr (.modifyEntity b u hf) fun edge hedge => ?_
  exact b.rosterOf_modifyEntity_of_ne (slot_ne_of_isUnmerged hu (hbases edge hedge)) f

theorem map_mergedIn_setAside {u : EntityId} (hu : b.isUnmerged u = true)
    (hbases : ∀ edge ∈ a.bases id, b.isUnmerged edge.target = false) :
    (a.entity? id).map (·.mergedIn (b.setAside u)) = (a.entity? id).map (·.mergedIn b) := by
  exact map_mergedIn_modifyEntity (fun e => e.outline_modifyClass fun _ => rfl) hu hbases

/-! ## A run of merges -/

/-- An atlas on the way from `a` to the merged one: what differs from `a` is merged as the recursion
says, and so are the bases of it. -/
structure IsPartway (a b : Atlas) : Prop where
  frame : { b with entities := a.entities } = a
  entity : ∀ id, b.entity? id = a.entity? id ∨
    b.entity? id = (a.entity? id).map (·.mergedIn b) ∧
      ∀ edge ∈ a.bases id, b.isUnmerged edge.target = false

/-- The step lemma: merging a class after its bases stays on the way. -/
theorem keptByMerging_isPartway (a : Atlas) : a.KeptByMerging (IsPartway a) := by
  intro b u _ hb hu hbases
  have hsettled (id : EntityId) (h : b.isUnmerged id = false) :
      (b.mergeOne u).value.isUnmerged id = false := by
    rw [Bool.eq_false_iff] at h ⊢
    exact fun hid => h ((b.isUnmerged_mergeOne u id).mp hid).1
  rw [value_mergeOne, if_pos hu] at hsettled ⊢
  have houtline (e : Entity) : (e.mergedIn (b.setAside u)).outline = e.outline :=
    e.outline_mergedIn _
  refine ⟨hb.frame, fun id => ?_⟩
  rw [entity?_modifyEntity]
  by_cases hslot : u.slot = id.slot
  · have hentity : b.entity? u = b.entity? id := entity?_eq_of_slot b hslot
    rw [bases_eq_of_slot a hslot] at hbases
    rcases hb.entity id with horiginal | ⟨hmerged, -⟩
    · refine .inr ⟨?_, fun edge hedge => hsettled _ (hbases edge hedge)⟩
      rw [if_pos hslot, horiginal, map_mergedIn_setAside hu hbases,
        map_mergedIn_modifyEntity houtline hu hbases]
    · rw [isUnmerged_congr hentity, isUnmerged_of_mergedIn hmerged] at hu
      cases hu
  · rw [if_neg hslot]
    rcases hb.entity id with horiginal | ⟨hmerged, hbases'⟩
    · exact .inl horiginal
    · refine .inr ⟨?_, fun edge hedge => hsettled _ (hbases' edge hedge)⟩
      rw [hmerged, map_mergedIn_modifyEntity houtline hu hbases']

theorem IsFresh.class?_eq_none (hfresh : a.IsFresh) (h : a.isUnmerged id = false) :
    a.class? id = none := by
  cases hclass : a.class? id with
  | none => rfl
  | some c =>
    obtain ⟨e, he, hbody⟩ := (a.class?_eq_some_iff id c).mp hclass
    have hmerged := hfresh e (Array.mem_of_getElem? he)
    rw [hbody, Option.all_some] at hmerged
    unfold isUnmerged at h
    rw [hclass, Option.any_some, hmerged] at h
    cases h

theorem entity?_mergedFrom (a b : Atlas) (id : EntityId) :
    (a.mergedFrom b).entity? id = (a.entity? id).map (·.mergedIn b) := by
  exact Array.getElem?_map

theorem eq_of_entity? {c : Atlas} (hb : { b with entities := a.entities } = a)
    (hc : { c with entities := a.entities } = a) (h : ∀ id, b.entity? id = c.entity? id) :
    b = c := by
  have hentities : b.entities = c.entities := by
    apply Array.ext_getElem?
    intro slot
    exact h (.ofSlot slot)
  calc
    b = { ({ b with entities := a.entities } : Atlas) with entities := b.entities } := rfl
    _ = { ({ c with entities := a.entities } : Atlas) with entities := c.entities } := by
      rw [hb, hc, hentities]
    _ = c := rfl

theorem IsFresh.map_mergedIn (hfresh : a.IsFresh) (h : a.isUnmerged id = false) :
    (a.entity? id).map (·.mergedIn b) = a.entity? id := by
  have hclass := hfresh.class?_eq_none h
  cases he : a.entity? id with
  | none => rfl
  | some e =>
    have hbody : e.class? = none := by simpa [class?, he] using hclass
    rw [Option.map_some, Entity.mergedIn_of_class?_eq_none hbody]

theorem IsPartway.eq_mergedFrom (h : IsPartway a b) (hfresh : a.IsFresh)
    (hsettled : ∀ id, b.isUnmerged id = false) : b = a.mergedFrom b := by
  refine eq_of_entity? h.frame rfl fun id => ?_
  rw [entity?_mergedFrom]
  rcases h.entity id with horiginal | ⟨hmerged, -⟩
  · have hunmerged : a.isUnmerged id = false := by
      rw [← isUnmerged_congr horiginal]
      exact hsettled id
    rw [horiginal, hfresh.map_mergedIn hunmerged]
  · exact hmerged

/-! ## There is one solution -/

/-- An atlas on the way from `a` to a given atlas. -/
structure IsTowards (a goal b : Atlas) : Prop where
  frame : { b with entities := a.entities } = a
  entity : ∀ id, b.entity? id = a.entity? id ∨ b.entity? id = goal.entity? id

theorem resembles_mergedFrom (a b : Atlas) : (a.mergedFrom b).Resembles a := by
  refine ⟨rfl, rfl, ?_⟩
  unfold mergedFrom
  rw [Array.map_map]
  congr 1
  funext e
  exact e.outline_mergedIn b

theorem IsTowards.rosterOf_eq (h : IsTowards a goal b) (hfresh : a.IsFresh)
    (hgoal : goal.Resembles a) (hsettled : b.isUnmerged id = false) :
    b.rosterOf id = goal.rosterOf id := by
  unfold rosterOf roster?
  rcases h.entity id with horiginal | hgoal'
  · have hunmerged : a.isUnmerged id = false := by
      rw [← isUnmerged_congr horiginal]
      exact hsettled
    have hclass := hfresh.class?_eq_none hunmerged
    have hgoalclass : goal.class? id = none := by
      have hisSome := hgoal.isSome_class? id
      rw [hclass] at hisSome
      exact Option.isNone_iff_eq_none.mp (by simpa using hisSome)
    have hbclass : b.class? id = none := by
      rw [class?, horiginal]
      exact hclass
    rw [hbclass, hgoalclass]
  · rw [class?, class?, hgoal']

theorem keptByMerging_isTowards (hfresh : a.IsFresh) (hgoal : goal = a.mergedFrom goal) :
    a.KeptByMerging (IsTowards a goal) := by
  intro b u hresembles hb hu hbases
  have hgoalresembles : goal.Resembles a := hgoal ▸ resembles_mergedFrom a goal
  have hgoalentity (id : EntityId) : goal.entity? id = (a.entity? id).map (·.mergedIn goal) := by
    rw [← entity?_mergedFrom, ← hgoal]
  rw [value_mergeOne, if_pos hu]
  refine ⟨hb.frame, fun id => ?_⟩
  rw [entity?_modifyEntity]
  by_cases hslot : u.slot = id.slot
  · have hentity : b.entity? u = b.entity? id := entity?_eq_of_slot b hslot
    rw [bases_eq_of_slot a hslot] at hbases
    rcases hb.entity id with horiginal | hgoal'
    · refine .inr ?_
      rw [if_pos hslot, horiginal, map_mergedIn_setAside hu hbases, hgoalentity]
      exact map_mergedIn_congr (hresembles.trans hgoalresembles.symm) fun edge hedge =>
        hb.rosterOf_eq hfresh hgoalresembles (hbases edge hedge)
    · rw [isUnmerged_congr hentity, isUnmerged_of_mergedIn (hgoal'.trans (hgoalentity id))] at hu
      cases hu
  · rw [if_neg hslot]
    exact hb.entity id

theorem isUnmerged_mergeAll_mergeEach (hnumbered : a.IsNumbered) (requests : List EntityId)
    (id : EntityId) : (a.mergeEach requests).mergeAll.value.1.isUnmerged id = false := by
  rw [mergeAll_mergeEach_eq_foldl, Bool.eq_false_iff]
  intro hid
  obtain ⟨hunmerged, hslots⟩ := isUnmerged_foldl_mergeFrom hid
  obtain ⟨e, c, he, hbody, -⟩ := class?_of_isUnmerged hunmerged
  have hmem : e.id ∈ a.classIds := by
    refine List.mem_map.mpr ⟨e, List.mem_filter.mpr ⟨?_, ?_⟩, rfl⟩
    · exact Array.mem_toList_iff.mpr (Array.mem_of_getElem? he)
    · simp [Entity.isClass, hbody]
  refine hslots e.id (List.mem_append_right _ hmem) ?_
  rw [hnumbered.id_eq he]
  rfl

theorem mergeAll_mergeEach_eq_mergedFrom (h : a.IsMergeable) (requests : List EntityId) :
    (a.mergeEach requests).mergeAll.value.1 =
      a.mergedFrom (a.mergeEach requests).mergeAll.value.1 := by
  have hpartway : IsPartway a (a.mergeEach requests).mergeAll.value.1 := by
    rw [mergeAll_mergeEach_eq_foldl]
    exact a.keptByMerging_isPartway.foldl_mergeFrom h.isAcyclic h.isWithinDepth (.refl a)
      ⟨rfl, fun _ => .inl rfl⟩ _
  exact hpartway.eq_mergedFrom h.isFresh (isUnmerged_mergeAll_mergeEach h.isNumbered requests)

/-- Whatever was merged before, a merge of all ends in the one fixed point. -/
theorem eq_mergeAll_mergeEach (h : a.IsMergeable) (hgoal : goal = a.mergedFrom goal)
    (requests : List EntityId) : goal = (a.mergeEach requests).mergeAll.value.1 := by
  have htowards : IsTowards a goal (a.mergeEach requests).mergeAll.value.1 := by
    rw [mergeAll_mergeEach_eq_foldl]
    exact (keptByMerging_isTowards h.isFresh hgoal).foldl_mergeFrom h.isAcyclic h.isWithinDepth
      (.refl a) ⟨rfl, fun _ => .inl rfl⟩ _
  have hframe : { goal with entities := a.entities } = a := by
    rw [hgoal]
    rfl
  refine eq_of_entity? hframe htowards.frame fun id => ?_
  rcases htowards.entity id with horiginal | hgoal'
  · have hunmerged : a.isUnmerged id = false := by
      rw [← isUnmerged_congr horiginal]
      exact isUnmerged_mergeAll_mergeEach h.isNumbered requests id
    rw [horiginal, hgoal, entity?_mergedFrom, h.isFresh.map_mergedIn hunmerged]
  · exact hgoal'.symm

theorem class?_of_eq_mergedFrom (h : b = a.mergedFrom b) {e : Entity} {c : ClassBody}
    (he : a.entity? id = some e) (hclass : e.class? = some c) :
    ∃ c', b.class? id = some c' ∧ c'.isMerged = true ∧
      c'.roster = (b.takenOver e.separator c.roster c.bases).1 := by
  have hentity : b.entity? id = some (e.mergedIn b) := by
    rw [h, entity?_mergedFrom, he, Option.map_some, ← h]
  have hmerged := e.class?_mergedIn b
  rw [hclass] at hmerged
  obtain ⟨c', hbody, hc'⟩ := Option.map_eq_some_iff.mp hmerged
  obtain ⟨hroster, hisMerged⟩ := Prod.mk.inj hc'
  exact ⟨c', (b.class?_eq_some_iff id c').mpr ⟨_, hentity, hbody⟩, hisMerged, hroster⟩

/-- Whichever classes are merged first, merging all classes ends in one and the same atlas: the only
one in which every class has what its edges bring, in the order of declaration, to the members of
its own, where each edge brings the roster that the base has in the end. -/
theorem exists_merged_atlas (a : Atlas) (h : a.IsMergeable) :
    ∃ b : Atlas,
      (∀ requests, (a.mergeEach requests).mergeAll.value.1 = b) ∧
      (∀ id e c, a.entity? id = some e → e.class? = some c →
        ∃ c', b.class? id = some c' ∧ c'.isMerged = true ∧
          c'.roster = (b.takenOver e.separator c.roster c.bases).1) ∧
      b = a.mergedFrom b ∧ ∀ b', b' = a.mergedFrom b' → b' = b := by
  have hsolves := mergeAll_mergeEach_eq_mergedFrom h []
  refine ⟨(a.mergeEach []).mergeAll.value.1, fun requests => ?_, fun id e c he hclass => ?_,
    hsolves, fun b' hb' => eq_mergeAll_mergeEach h hb' []⟩
  · exact (eq_mergeAll_mergeEach h hsolves requests).symm
  · exact class?_of_eq_mergedFrom hsolves he hclass

/-- The atlas with a function declared in a class. -/
def declaring (a : Atlas) (owner : EntityId) (name args : String) : Atlas :=
  let added := a.addMember (some owner) ({ name, kind := .function : Member }.withArgs args)
  (added.1.fileInClass owner added.2 .pub true).value

/-- The atlas with an entity declared. -/
def naming (a : Atlas) (name : String) : Atlas :=
  (a.register name .classKind {}).1

/-- Four classes, the last of which is derived from the first in two ways, and hides one of the two
functions that the first declares. -/
def diamond : Atlas :=
  let a := ((empty { maxInheritanceDepth := 3 }).naming "Top").naming "Left"
  let a := (a.naming "Right").naming "Bottom"
  let a := ((a.declaring ⟨1⟩ "f" "(int x)").declaring ⟨1⟩ "g" "()").declaring ⟨4⟩ "f" "(char c)"
  let a := (a.linkBase ⟨2⟩ { target := ⟨1⟩, protection := .prot }).value
  let a := (a.linkBase ⟨3⟩ { target := ⟨1⟩, virtualness := .virtual }).value
  let a := (a.linkBase ⟨4⟩ { target := ⟨2⟩ }).value
  (a.linkBase ⟨4⟩ { target := ⟨3⟩ }).value

theorem exists_merged_diamond :
    diamond.IsMergeable ∧
      ∀ requests, (diamond.mergeEach requests).mergeAll.value.1 = diamond.mergeAll.value.1 := by
  have h : diamond.IsMergeable :=
    .of_earlier (by decide +kernel) (by decide +kernel) (by decide +kernel) (by decide +kernel)
  have hnone : diamond.mergeEach [] = diamond := rfl
  obtain ⟨b, hb, -⟩ := exists_merged_atlas diamond h
  refine ⟨h, fun requests => ?_⟩
  rw [hb requests, ← hb [], hnone]

end SymbolAtlas.Atlas
