import SymbolAtlas.Proofs.Inheritance.Once
import SymbolAtlas.Proofs.Inheritance.Provenance
import SymbolAtlas.Proofs.Inheritance.Reception
import SymbolAtlas.Proofs.Inheritance.Search

/-!
# Overriding

A view that comes into a class is confronted with the views that are there under its name, up to the
first that covers it, and the own views of the class are always among them. An own member covers
every other one of a compatible signature whose owner a search finds among the bases. Without a bound
it finds all classes that members may come from, and so no class inherits what it overrides.
-/

set_option autoImplicit false

namespace SymbolAtlas

theorem Signature.isCompatible_comm (s t : Signature) : s.isCompatible t = t.isCompatible s := by
  unfold isCompatible
  rw [BEq.comm, BEq.comm (a := s.isConst), BEq.comm (a := s.isVolatile)]

namespace Atlas

open SymbolAtlas.Graph

variable {a b : Atlas} {id base : EntityId} {edges : List BaseEdge} {name : String} {o s : View}
variable {passage : Passage}

/-! ## Finding owners -/

theorem BaseChain.number_ne (h : a.BaseChain id edges base) (hzero : a.AvoidsZero)
    (hne : edges ≠ []) : base.number ≠ 0 := by
  induction h with
  | nil => exact absurd rfl hne
  | cons hedge rest ih =>
    cases rest with
    | nil => exact hzero.number_ne hedge
    | cons hedge' rest => exact ih (List.cons_ne_nil _ _)

theorem BaseChain.isBase (h : a.BaseChain id edges base) (hne : edges ≠ [])
    (hbound : a.options.maxInheritanceDepth = 0) : (a.isBase id base true).value = true := by
  cases h with
  | nil => exact absurd rfl hne
  | cons hedge rest =>
    exact reaches_of_walk a.isRooted_baseGraph (fun _ _ _ => .inl hbound)
      (BaseChain.cons hedge rest).walk

/-- From the owner of what a class declares, a search finds the owner of whatever it may inherit. -/
def FindsOwners (a : Atlas) : Prop :=
  ∀ id edges base, a.BaseChain id edges base → edges ≠ [] →
    ∀ own mid source, a.member? mid = some source → own.IsOwnedBy id → source.IsOwnedBy base →
      (a.isOwnedBelow own source).value = true

theorem findsOwners (hbound : a.options.maxInheritanceDepth = 0) (hzero : a.AvoidsZero)
    (howners : ∀ mid m, a.member? mid = some m → ∀ owner ∈ m.owner, 0 < owner.number) :
    a.FindsOwners := by
  intro id edges base hchain hne own mid source hsource howned hsourced
  obtain ⟨derived, hderived, hslot⟩ := Option.map_eq_some_iff.mp howned
  obtain ⟨base', hbase', hslot'⟩ := Option.map_eq_some_iff.mp hsourced
  -- numbers that are given out and share a place are equal
  obtain rfl : base' = base := by
    have hpos := howners mid source hsource base' hbase'
    have hpos' := Nat.pos_of_ne_zero (hchain.number_ne hzero hne)
    exact EntityId.eq_of_slot hpos hpos' hslot'
  have hchain' : a.BaseChain derived edges base' := by
    cases hchain with
    | nil => exact absurd rfl hne
    | cons hedge rest => exact .cons (a.bases_eq_of_slot hslot ▸ hedge) rest
  unfold isOwnedBelow
  split
  · rfl
  · rw [hderived, hbase']
    exact hchain'.isBase hne hbound

/-- From the owner of the member of `o`, a search finds that of the member of `s`. -/
def IsFoundFrom (a : Atlas) (o s : View) : Prop :=
  ∀ own source, a.member? o.member = some own → a.member? s.member = some source →
    (a.isOwnedBelow own source).value = true

/-! ## One view -/

/-- The views are of different members whose signatures are compatible. -/
def Clash (a : Atlas) (o t : View) : Prop :=
  o.member ≠ t.member ∧ ∃ own source, a.member? o.member = some own ∧
    a.member? t.member = some source ∧ source.signature.isCompatible own.signature = true

theorem meeting_eq_covered {source own : Member} (hne : s.member ≠ o.member)
    (hbelow : (a.isOwnedBelow own source).value = true)
    (hcompatible : source.signature.isCompatible own.signature = true) :
    (a.meeting passage s source o own).value = .covered := by
  unfold meeting
  rw [if_pos hne, Noted.value_bind, hbelow, hcompatible]
  rfl

theorem meeting_ne_covered {source : Member} {present : List View}
    (h : (a.confront passage s source present).value.1.isCovered = false) {v : View}
    (hv : v ∈ present) {target : Member} (htarget : a.member? v.member = some target) :
    (a.meeting passage s source v target).value ≠ .covered := by
  induction present with
  | nil => cases hv
  | cons view rest ih =>
    unfold confront at h
    cases hm : a.member? view.member with
    | none =>
      simp only [hm, Noted.value_bind, Noted.value_pure] at h
      rcases List.mem_cons.mp hv with rfl | hv
      · rw [hm] at htarget
        cases htarget
      · exact ih h hv
    | some met =>
      simp only [hm] at h
      rw [Noted.value_bind] at h
      have hfirst : (a.meeting passage s source view met).value ≠ .covered := by
        intro hcovered
        rw [hcovered] at h
        cases h
      have hrest : (a.confront passage s source rest).value.1.isCovered = false := by
        cases hmeeting : (a.meeting passage s source view met).value with
        | covered => exact absurd hmeeting hfirst
        | hidden | ambiguous =>
          simp only [hmeeting, Noted.value_bind, Noted.value_pure] at h
          exact h
      rcases List.mem_cons.mp hv with rfl | hv
      · obtain rfl : met = target := Option.some.inj (hm.symm.trans htarget)
        exact hfirst
      · exact ih hrest hv

/-! ## One own view -/

/-- Views under a name among which there is one of the member of `o`, and no inherited one that
clashes with it. -/
structure Guards (a : Atlas) (o : View) (views : List View) : Prop where
  shown : ∃ v ∈ views, v.member = o.member
  clear : ∀ t ∈ views, t.isInherited = true → ¬ a.Clash o t

theorem Resembles.guards (h : a.Resembles b) {views : List View} (hguards : a.Guards o views) :
    b.Guards o views := by
  refine ⟨hguards.shown, fun t ht hinherited hclash => hguards.clear t ht hinherited ?_⟩
  unfold Clash
  simp only [h.member?]
  exact hclash

namespace Guards

variable {views : List View}
variable {separator : String}

theorem grown {after : List View} (h : a.Guards o views)
    (hgrown : View.Grown separator (fun t => ¬ a.Clash o t) views after) : a.Guards o after := by
  refine ⟨?_, fun t ht hinherited => ?_⟩
  · obtain ⟨v, hv, hmember⟩ := h.shown
    obtain ⟨w, hw, hmarked⟩ := hgrown.exists_marked hv
    refine ⟨w, hw, ?_⟩
    rw [hmarked.eq]
    exact hmember
  · rcases hgrown.mem ht with ⟨v, hv, hmarked⟩ | hnew
    · rw [hmarked.eq] at hinherited ⊢
      exact h.clear v hv hinherited
    · exact hnew

theorem receiveAmong (h : a.Guards o views) (hfound : a.IsFoundFrom o s) :
    a.Guards o (a.receiveAmong passage views s) := by
  rcases a.receiveAmong_cases passage views s with
    ⟨-, hviews⟩ | ⟨source, hsource, ⟨-, hviews⟩ | ⟨huncovered, -, -, hviews⟩⟩
  · rw [hviews]
    exact h
  · rw [hviews]
    exact h.grown (a.confront_grown passage s source _ views)
  · rw [hviews]
    refine h.grown ((a.confront_grown passage s source _ views).snoc ?_)
    rintro ⟨hne, own, source', hown, hsource', hcompatible⟩
    rw [member_passedAmong] at hne hsource'
    obtain rfl : source = source' := Option.some.inj (hsource.symm.trans hsource')
    have hbelow := hfound own source hown hsource
    obtain ⟨v, hv, hmember⟩ := h.shown
    rw [← hmember] at hne hown
    exact meeting_ne_covered huncovered hv hown (meeting_eq_covered hne.symm hbelow hcompatible)

theorem foldl_receiveAmong {incoming : List View} (h : a.Guards o views)
    (hfound : ∀ s ∈ incoming, a.IsFoundFrom o s) :
    a.Guards o (incoming.foldl (a.receiveAmong passage) views) := by
  induction incoming generalizing views with
  | nil => exact h
  | cons s rest ih =>
    rw [List.forall_mem_cons] at hfound
    exact ih (h.receiveAmong hfound.1) hfound.2

theorem inheritFrom {state : Roster × Inlined} {edge : BaseEdge}
    (h : a.Guards o (state.1.under name))
    (hfound : ∀ s ∈ (a.rosterOf edge.target).under name, a.IsFoundFrom o s) :
    a.Guards o ((a.inheritFrom separator state edge).value.1.under name) := by
  rw [under_inheritFrom]
  unfold Roster.under at h
  cases hviews : state.1.get? name with
  | none =>
    obtain ⟨v, hv, -⟩ := h.shown
    rw [hviews] at hv
    cases hv
  | some views =>
    rw [hviews] at h
    exact h.foldl_receiveAmong hfound

theorem takenOver {own : Roster} (h : a.Guards o (own.under name))
    (hfound : ∀ edge ∈ edges, ∀ s ∈ (a.rosterOf edge.target).under name, a.IsFoundFrom o s) :
    a.Guards o ((a.takenOver separator own edges).1.under name) := by
  induction edges using List.reverseRecOn with
  | nil => exact h
  | append_singleton edges edge ih =>
    rw [takenOver_append]
    refine (ih fun edge' hedge' => hfound edge' (List.mem_append_left _ hedge')).inheritFrom ?_
    exact hfound edge (List.mem_append_right _ (List.mem_singleton_self edge))

end Guards

/-! ## All classes -/

/-- The own views that classes have in `a` guard their rosters in `b`. -/
def IsGuarded (a b : Atlas) : Prop :=
  ∀ id name, ∀ o ∈ (a.rosterOf id).under name, a.Guards o ((b.rosterOf id).under name)

theorem ListsOwnViews.isGuarded (h : a.ListsOwnViews) : a.IsGuarded a := by
  intro id name o ho
  refine ⟨⟨o, ho, rfl⟩, fun t ht hinherited => ?_⟩
  rw [(h id name t ht).isInherited] at hinherited
  cases hinherited

theorem HasProvenance.exists_owner (h : HasProvenance a b) (ha : a.ListsOwnViews)
    (hs : s ∈ (b.rosterOf id).under name) :
    ∃ m edges base, a.member? s.member = some m ∧ a.BaseChain id edges base ∧ m.IsOwnedBy base := by
  obtain ⟨rest, hrest, hinherited⟩ := h.rosters id name
  rw [hrest] at hs
  rcases List.mem_append.mp hs with hs | hs
  · obtain ⟨m, hm, -, -, howned⟩ := (ha id name s hs).member
    exact ⟨m, [], id, hm, .nil id, howned⟩
  · obtain ⟨m, edges, base, hfrom⟩ := hinherited s hs
    obtain ⟨v, hv, -, hmember⟩ := hfrom.own
    obtain ⟨m', hm', -, -, howned⟩ := (ha base name v hv).member
    rw [hmember] at hm'
    exact ⟨m', edges, base, hm', hfrom.chain, howned⟩

/-- The step lemma: a merge lets nothing in that the class overrides. -/
theorem IsGuarded.mergeOne (h : a.IsGuarded b) (hprovenance : HasProvenance a b)
    (ha : a.ListsOwnViews) (hfinds : a.FindsOwners) (u : EntityId) :
    a.IsGuarded (b.mergeOne u).value := by
  intro id name o ho
  have hguards := h id name o ho
  rcases hprovenance.resembles.rosterOf_mergeOne u id with hroster | ⟨-, -, hroster⟩
  · rw [hroster]
    exact hguards
  · rw [hroster]
    have hresembles := (b.resembles_setAside u).trans hprovenance.resembles
    refine hresembles.guards ((hresembles.symm.guards hguards).takenOver fun edge hedge s hs => ?_)
    intro own source hown hsource
    rw [hresembles.member?] at hown hsource
    rw [hresembles.isOwnedBelow]
    obtain ⟨own', hown', -, -, howned⟩ := (ha id name o ho).member
    obtain rfl : own = own' := Option.some.inj (hown.symm.trans hown')
    obtain ⟨source', edges, base, hsource', hchain, hsourced⟩ :=
      hprovenance.exists_owner ha (under_rosterOf_setAside hs)
    obtain rfl : source = source' := Option.some.inj (hsource.symm.trans hsource')
    exact hfinds id (edge :: edges) base (.cons hedge hchain) (List.cons_ne_nil _ _) own s.member
      source hsource howned hsourced

theorem isGuarded_mergeAll (ha : a.ListsOwnViews) (hfinds : a.FindsOwners) :
    a.IsGuarded a.mergeAll.value.1 :=
  (mergeAll_induction (P := fun b => HasProvenance a b ∧ a.IsGuarded b)
    (fun _ u hb => ⟨hb.1.mergeOne ha u, hb.2.mergeOne hb.1 ha hfinds u⟩)
    ⟨.refl a, ha.isGuarded⟩).2

theorem IsGuarded.closeAllUsing (h : a.IsGuarded b) : a.IsGuarded b.closeAllUsing := by
  refine closeAllUsing_kept (fun b u f hb id name o ho => ?_) h
  rw [rosterOf_modifyNamespace]
  exact hb id name o ho

end Atlas

end SymbolAtlas
