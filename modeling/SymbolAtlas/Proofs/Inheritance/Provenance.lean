import SymbolAtlas.Proofs.Atlas.Tidy
import SymbolAtlas.Proofs.Inheritance.Order
import SymbolAtlas.Proofs.Using.Absorption

/-!
# Where inherited members come from

Whatever the hierarchy looks like, cycles and bounds included, merging keeps the views that a class
had in their places, and each view behind them is that of a member which a class at the end of a
chain of base edges declares. The chain tells path and virtualness of the view.
-/

set_option autoImplicit false

namespace SymbolAtlas

/-- The first virtualness that is not normal; normal if there is none. -/
def Virtualness.firstOf (levels : List Virtualness) : Virtualness :=
  (levels.find? fun v => !v.isNormal).getD .normal

theorem Virtualness.firstOf_append_singleton (levels : List Virtualness) (edge : Virtualness) :
    firstOf (levels ++ [edge]) = (firstOf levels).through edge := by
  unfold firstOf through
  rw [List.find?_append]
  cases hfind : levels.find? fun v => !v.isNormal with
  | some v =>
    have hv : v.isNormal = false := by simpa using List.find?_some hfind
    simp [hv]
  | none => cases edge <;> rfl

theorem Virtualness.firstOf_singleton (v : Virtualness) : firstOf [v] = v := by
  cases v <;> rfl

namespace Atlas

variable {a b : Atlas} {isPresent : Bool}

/-- The path along a chain of edges: for each class that it leads to, the name of that class and the
separator of the one before. -/
def chainPath (a : Atlas) (id : EntityId) : List BaseEdge → String
  | [] => ""
  | edge :: edges => a.name edge.target ++ a.separator id ++ a.chainPath edge.target edges

/-- The virtualness of a member at the end of a chain of edges: its own, or else that of the first
edge, on the way back, which has one. -/
def chainVirtualness (m : Member) (edges : List BaseEdge) : Virtualness :=
  .firstOf (m.virtualness :: edges.reverse.map (·.virtualness))

/-- The view is inherited under a name from a class at the end of a chain of edges, which lists the
member as its own. -/
structure IsInheritedFrom (a : Atlas) (id : EntityId) (name : String) (t : View) (m : Member)
    (edges : List BaseEdge) (base : EntityId) : Prop where
  isInherited : t.isInherited = true
  member : a.member? t.member = some m
  named : m.name = name
  isFriend : m.flags.isFriend = false
  chain : a.BaseChain id edges base
  ne_nil : edges ≠ []
  own : ∃ s ∈ (a.rosterOf base).under name, s.isInherited = false ∧ s.member = t.member
  path : t.path = a.chainPath id edges
  virtualness : t.virtualness = chainVirtualness m edges

/-- All rosters list members of their classes, under their names. -/
def ListsOwnViews (a : Atlas) : Prop :=
  ∀ id, a.ListsOwn id (a.rosterOf id)

theorem IsTidy.listsOwnViews (h : a.IsTidy) : a.ListsOwnViews := by
  intro id
  cases hclass : a.class? id with
  | none =>
    have hroster : a.rosterOf id = .empty := by simp [rosterOf, roster?, hclass]
    rw [hroster]
    exact a.listsOwn_empty id
  | some c =>
    have hroster : a.rosterOf id = c.roster := by simp [rosterOf, roster?, hclass]
    rw [hroster]
    exact h.listsOwn hclass

theorem chainVirtualness_cons (m : Member) (edge : BaseEdge) (edges : List BaseEdge) :
    chainVirtualness m (edge :: edges) = (chainVirtualness m edges).through edge.virtualness := by
  unfold chainVirtualness
  rw [← Virtualness.firstOf_append_singleton, List.reverse_cons, List.map_append]
  rfl

namespace IsInheritedFrom

variable {a : Atlas} {id : EntityId} {name : String} {t : View} {m : Member}
variable {edges : List BaseEdge} {base : EntityId}

theorem marked {t' : View} {separator : String} (h : a.IsInheritedFrom id name t m edges base)
    (hmarked : t.Marked separator t') : a.IsInheritedFrom id name t' m edges base := by
  rw [hmarked.eq]
  exact ⟨h.isInherited, h.member, h.named, h.isFriend, h.chain, h.ne_nil, h.own, h.path,
    h.virtualness⟩

theorem of_own {edge : BaseEdge} {s : View} (hedge : edge ∈ a.bases id)
    (hs : s ∈ (a.rosterOf edge.target).under name) (hown : a.IsOwnView edge.target name s)
    (harrival : a.Arrival (a.passage (a.separator id) edge) isPresent s t) :
    ∃ m edges base, a.IsInheritedFrom id name t m edges base := by
  obtain ⟨m, hm, hname, hvirtualness, -⟩ := hown.member
  obtain ⟨m', hm', hfriend, -⟩ := harrival.source
  obtain rfl : m = m' := Option.some.inj (hm.symm.trans hm')
  refine ⟨m, [edge], edge.target, harrival.isInherited, harrival.member ▸ hm, hname, hfriend,
    .cons hedge (.nil _), by simp, ⟨s, hs, hown.isInherited, harrival.member.symm⟩, ?_, ?_⟩
  · rw [harrival.path, Passage.path, hown.path]
    rfl
  · rw [harrival.virtualness, hvirtualness, chainVirtualness_cons]
    unfold chainVirtualness
    rw [List.reverse_nil, List.map_nil, Virtualness.firstOf_singleton]
    rfl

theorem of_inherited {edge : BaseEdge} {s : View} (hedge : edge ∈ a.bases id)
    (hs : a.IsInheritedFrom edge.target name s m edges base)
    (harrival : a.Arrival (a.passage (a.separator id) edge) isPresent s t) :
    a.IsInheritedFrom id name t m (edge :: edges) base := by
  obtain ⟨v, hv, hown, hmember⟩ := hs.own
  refine ⟨harrival.isInherited, harrival.member ▸ hs.member, hs.named, hs.isFriend,
    .cons hedge hs.chain, by simp, ⟨v, hv, hown, hmember.trans harrival.member.symm⟩, ?_, ?_⟩
  · rw [harrival.path, Passage.path, hs.path]
    rfl
  · rw [harrival.virtualness, hs.virtualness, chainVirtualness_cons]
    rfl

end IsInheritedFrom

theorem Resembles.chainPath (h : a.Resembles b) (id : EntityId) (edges : List BaseEdge) :
    a.chainPath id edges = b.chainPath id edges := by
  induction edges generalizing id with
  | nil => rfl
  | cons edge edges ih =>
    unfold Atlas.chainPath
    rw [h.name, h.separator, ih]

/-! ## What merging adds -/

/-- The rosters of `b` are those of `a`, with inherited views behind the own ones. -/
structure HasProvenance (a b : Atlas) : Prop where
  resembles : b.Resembles a
  rosters : ∀ id name, ∃ rest, (b.rosterOf id).under name = (a.rosterOf id).under name ++ rest ∧
    ∀ t ∈ rest, ∃ m edges base, a.IsInheritedFrom id name t m edges base

theorem HasProvenance.refl (a : Atlas) : HasProvenance a a :=
  ⟨.refl a, fun _ _ => ⟨[], by simp, by simp⟩⟩

theorem separator_ne_empty (a : Atlas) (id : EntityId) : a.separator id ≠ "" := by
  unfold separator
  cases a.entity? id with
  | none => simp
  | some e =>
    show e.language.separator e.isClass ≠ ""
    cases e.language <;> simp [Language.separator]
    cases e.isClass <;> simp

theorem under_rosterOf_setAside {u id : EntityId} {name : String} {s : View}
    (h : s ∈ ((a.setAside u).rosterOf id).under name) : s ∈ (a.rosterOf id).under name := by
  unfold setAside modifyClass rosterOf roster? class? at h
  rw [entity?_modifyEntity] at h
  split at h
  · cases he : a.entity? id with
    | none => simp [he, Roster.under] at h
    | some e =>
      cases hclass : e.class? with
      | none => simp [he, hclass, Roster.under] at h
      | some c => simp [he, hclass, Roster.under] at h
  · exact h

theorem Resembles.arrival (h : a.Resembles b) {passage : Passage} {s t : View}
    (harrival : a.Arrival passage isPresent s t) : b.Arrival passage isPresent s t := by
  obtain ⟨m, hm, hrest⟩ := harrival.source
  exact ⟨harrival.member, harrival.virtualness, harrival.isInherited, harrival.path,
    ⟨m, h.member? _ ▸ hm, hrest⟩, h.options ▸ harrival.isPrivate, harrival.ambiguousWith⟩

theorem HasProvenance.of_arrived (h : HasProvenance a b) (ha : a.ListsOwnViews) {u id : EntityId}
    {own : Roster} {name : String} {t : View}
    (harrived : (b.setAside u).Arrived (a.separator id) own (a.bases id) name t) :
    ∃ m edges base, a.IsInheritedFrom id name t m edges base := by
  obtain ⟨before, edge, after, heq, s, hs, harrival⟩ := harrived
  have hresembles := (b.resembles_setAside u).trans h.resembles
  have hedge : edge ∈ a.bases id := by
    rw [heq]
    simp
  have hpassage :
      (b.setAside u).passage (a.separator id) edge = a.passage (a.separator id) edge := by
    rw [passage, passage, hresembles.name]
  rw [hpassage] at harrival
  obtain ⟨rest, hrest, hinherited⟩ := h.rosters edge.target name
  have hs' := under_rosterOf_setAside hs
  rw [hrest] at hs'
  rcases List.mem_append.mp hs' with hs' | hs'
  · exact IsInheritedFrom.of_own hedge hs' (ha edge.target name s hs') (hresembles.arrival harrival)
  · obtain ⟨m, edges, base, hs'⟩ := hinherited s hs'
    exact ⟨m, edge :: edges, base, hs'.of_inherited hedge (hresembles.arrival harrival)⟩

theorem Resembles.rosterOf_mergeOne (h : b.Resembles a) (u id : EntityId) :
    (b.mergeOne u).value.rosterOf id = b.rosterOf id ∨
      b.isUnmerged id = true ∧ u.slot = id.slot ∧ (b.mergeOne u).value.rosterOf id =
        ((b.setAside u).takenOver (a.separator id) (b.rosterOf id) (a.bases id)).1 := by
  rw [value_mergeOne]
  split
  · next hu =>
    by_cases hslot : u.slot = id.slot
    · obtain ⟨e, c, he, hclass, -⟩ := class?_of_isUnmerged hu
      rw [b.entity?_eq_of_slot hslot] at he
      have hseparator : e.separator = a.separator id := by
        rw [← h.separator, Atlas.separator, he]
        rfl
      have hbases : c.bases = a.bases id := by
        rw [← h.bases]
        simp [Atlas.bases, class?, he, hclass]
      refine .inr ⟨isUnmerged_congr (b.entity?_eq_of_slot hslot) ▸ hu, hslot, ?_⟩
      rw [rosterOf_of_mergedIn (by rw [entity?_modifyEntity, if_pos hslot, he, Option.map_some])
        hclass, rosterOf_of_class? he hclass, hseparator, hbases]
    · exact .inl (b.rosterOf_modifyEntity_of_ne hslot _)
  · exact .inl rfl

/-- The step lemma: views have come along chains of bases. -/
theorem HasProvenance.mergeOne (h : HasProvenance a b) (ha : a.ListsOwnViews) (u : EntityId) :
    HasProvenance a (b.mergeOne u).value := by
  refine ⟨(b.resembles_mergeOne u).trans h.resembles, fun id name => ?_⟩
  obtain ⟨rest, hrest, hinherited⟩ := h.rosters id name
  rcases h.resembles.rosterOf_mergeOne u id with hroster | ⟨-, -, hroster⟩
  · rw [hroster]
    exact ⟨rest, hrest, hinherited⟩
  · have hgrown := (b.setAside u).takenOver_grown (a.separator id) (b.rosterOf id) (a.bases id) name
    rw [← hroster, hrest] at hgrown
    obtain ⟨rest', hafter, hgrown'⟩ := hgrown.append (a.separator_ne_empty id)
      fun v hv => (ha id name v hv).path
    refine ⟨rest', hafter, fun t ht => ?_⟩
    rcases hgrown'.mem ht with ⟨v, hv, hmarked⟩ | harrived
    · obtain ⟨m, edges, base, hv⟩ := hinherited v hv
      exact ⟨m, edges, base, hv.marked hmarked⟩
    · exact h.of_arrived ha harrived

theorem hasProvenance_mergeAll (ha : a.ListsOwnViews) : HasProvenance a a.mergeAll.value.1 :=
  mergeAll_induction (fun _ u hb => hb.mergeOne ha u) (.refl a)

/-! ## What closing the using relations leaves -/

theorem rosterOf_modifyNamespace (a : Atlas) (id : EntityId) (f : NamespaceBody → NamespaceBody)
    (id' : EntityId) : (a.modifyNamespace id f).rosterOf id' = a.rosterOf id' := by
  exact congrArg (fun c? => (c?.map ClassBody.roster).getD .empty)
    (a.read_modifyEntity_eq id id' (r := fun x => x.bind (·.class?)) fun e => e.class?_modifyNamespace f)

theorem HasProvenance.closeAllUsing (h : HasProvenance a b) : HasProvenance a b.closeAllUsing := by
  refine closeAllUsing_kept (fun b id f hb => ?_) h
  refine ⟨(b.resembles_modifyNamespace id f).trans hb.resembles, fun id' name => ?_⟩
  rw [rosterOf_modifyNamespace]
  exact hb.rosters id' name

theorem HasProvenance.isInheritedFrom {a b : Atlas} (h : HasProvenance a b) {id base : EntityId}
    {name : String} {t : View} {m : Member} {edges : List BaseEdge}
    (ht : a.IsInheritedFrom id name t m edges base) :
    b.IsInheritedFrom id name t m edges base := by
  obtain ⟨s, hs, hown, hmember⟩ := ht.own
  obtain ⟨rest, hrest, -⟩ := h.rosters base name
  refine ⟨ht.isInherited, h.resembles.member? _ ▸ ht.member, ht.named, ht.isFriend,
    h.resembles.symm.baseChain ht.chain, ht.ne_nil, ⟨s, ?_, hown, hmember⟩, ?_, ht.virtualness⟩
  · rw [hrest]
    exact List.mem_append_left rest hs
  · rw [h.resembles.chainPath]
    exact ht.path

end Atlas

end SymbolAtlas
