import SymbolAtlas.Proofs.Atlas.Operations
import SymbolAtlas.Proofs.Inheritance.Search

/-!
# Bases and derived classes

A class lists its bases, and each base lists the class in turn unless it is private and private
classes are left out. The two lists say the same as long as nobody changes the protection of a class
that has bases: whatever else is done to an atlas, an edge is put into both or into none. So looking
for a derived class among the derived classes and for the base among the bases comes to the same.
Derived classes are put where their names belong, and so their lists are in order.
-/

set_option autoImplicit false

namespace SymbolAtlas

variable {edge : BaseEdge} {x y : EntityId}

/-- What an edge says at either end. -/
def BaseEdge.terms (edge : BaseEdge) : Protection × Virtualness × String :=
  (edge.protection, edge.virtualness, edge.templateSpec)

/-- What the edges to a class say. -/
def BaseEdge.termsTo (target : EntityId) (edges : List BaseEdge) :
    List (Protection × Virtualness × String) :=
  (edges.filter fun edge => edge.target = target).map (·.terms)

theorem BaseEdge.termsTo_ne_nil_iff (target : EntityId) (edges : List BaseEdge) :
    termsTo target edges ≠ [] ↔ ∃ edge ∈ edges, edge.target = target := by
  simp [termsTo]

namespace Atlas

open SymbolAtlas.Graph

variable {a b : Atlas}
variable {id child parent : EntityId} (options : Options) {g : EntityId → Profile → Profile}

/-! ## The edges of a class -/

/-- The class that a category is assigned to. -/
def categoryOf (a : Atlas) (id : EntityId) : Option EntityId :=
  (a.class? id).bind (·.categoryOf)

theorem categoryOf_eq_relations? (a : Atlas) (id : EntityId) :
    a.categoryOf id = (a.relations? id).bind (·.categoryOf) := by
  rw [relations?, Option.bind_map]
  rfl

/-- The bases and the derived classes of a class, and what it is a category of. -/
def edges (a : Atlas) (id : EntityId) : List BaseEdge × List BaseEdge × Option EntityId :=
  ((a.relations? id).map fun r => (r.bases, r.derived, r.categoryOf)).getD ([], [], none)

theorem edges_eq (a : Atlas) (id : EntityId) :
    a.edges id = (a.bases id, a.derived id, a.categoryOf id) := by
  rw [edges, bases_eq_relations?, derived_eq_relations?, categoryOf_eq_relations?]
  cases a.relations? id <;> rfl

theorem eqs_of_edges_eq (h : b.edges id = a.edges id) :
    b.bases id = a.bases id ∧ b.derived id = a.derived id ∧ b.categoryOf id = a.categoryOf id := by
  rwa [edges_eq, edges_eq, Prod.mk.injEq, Prod.mk.injEq] at h

theorem edges_of_size_le (h : a.entities.size ≤ id.slot) :
    a.bases id = [] ∧ a.derived id = [] ∧ a.categoryOf id = none := by
  rw [← Prod.mk.injEq, ← Prod.mk.injEq, ← edges_eq]
  unfold edges
  cases hr : a.relations? id with
  | none => rfl
  | some r => exact absurd (slot_lt_of_relations? hr) (Nat.not_lt.mpr h)

theorem isListed_congr (hoptions : b.options = a.options)
    (h : (b.profile? id).map (·.protection) = (a.profile? id).map (·.protection)) :
    b.isListed id = a.isListed id := by
  have hread (a : Atlas) : a.isListed id = ((a.profile? id).map (·.protection)).any fun q =>
      !(q == .priv && !a.options.extractPrivate) := by
    rw [isListed_eq_profile?, Option.any_map]
  rw [hread, hread, h, hoptions]

/-- No edge is added, and classes with bases stay listed or not. -/
structure KeepsEdges (a b : Atlas) : Prop where
  edges : ∀ id, b.edges id = a.edges id
  listed : ∀ id, a.bases id ≠ [] → b.isListed id = a.isListed id

/-- One edge is added at both ends. -/
structure Links (a b : Atlas) (child : EntityId) (edge : BaseEdge) : Prop where
  holdsChild : a.HoldsClass child
  holdsParent : a.HoldsClass edge.target
  ne : edge.target ≠ child
  bases : ∀ id, b.bases id = if child.slot = id.slot then a.bases id ++ [edge] else a.bases id
  derived : ∀ id, b.derived id =
    if edge.target.slot = id.slot ∧ a.isListed child = true then
      a.insertDerived (edge.toDerived child) (a.derived id)
    else a.derived id
  categoryOf : ∀ id, b.categoryOf id = a.categoryOf id
  listed : ∀ id, b.isListed id = a.isListed id

theorem Modifies.edges_eq (h : a.Modifies b g) (hg : ∀ id p, (g id p).relations? = p.relations?)
    (id : EntityId) : b.edges id = a.edges id := by
  unfold edges
  rw [relations?_eq_profile?, relations?_eq_profile?, h.profile, Option.bind_map]
  simp only [Function.comp_def, hg]

theorem Adds.keepsEdges {new : Profile} (h : a.Adds b new g)
    (hnew : ∀ r, new.relations? = some r → r.bases = [] ∧ r.derived = [] ∧ r.categoryOf = none)
    (hg : ∀ id p, ((g id p).relations?.map fun r => (r.bases, r.derived, r.categoryOf)) =
      p.relations?.map fun r => (r.bases, r.derived, r.categoryOf))
    (hprotection : ∀ id p, (g id p).protection = p.protection) : a.KeepsEdges b := by
  refine ⟨fun id => ?_, fun id hbases => ?_⟩
  · by_cases hid : id.slot = a.entities.size
    · obtain ⟨hbases, hderived, hcategory⟩ := a.edges_of_size_le (Nat.le_of_eq hid.symm)
      rw [a.edges_eq, hbases, hderived, hcategory, edges, relations?_eq_profile?, h.profile,
        if_pos hid, Option.bind_some]
      cases hr : new.relations? with
      | none => rfl
      | some r => simp [hnew r hr]
    · rw [edges, edges, relations?_eq_profile?, relations?_eq_profile?, h.profile, if_neg hid]
      cases a.profile? id with
      | none => rfl
      | some p => rw [Option.map_some, Option.bind_some, Option.bind_some, hg]
  · refine isListed_congr h.options ?_
    have hid : id.slot ≠ a.entities.size := by
      intro hid
      exact hbases (a.edges_of_size_le (Nat.le_of_eq hid.symm)).1
    rw [h.profile, if_neg hid, Option.map_map]
    simp only [Function.comp_def, hprotection]

/-- A change keeps all edges, or adds one to a class and its base. -/
theorem Change.edges_cases (h : Change true a b) :
    a.KeepsEdges b ∨ ∃ child edge, a.Links b child edge := by
  cases h with
  | keep h =>
    refine .inl ⟨h.edges_eq fun _ _ => rfl, fun id _ => isListed_congr h.options ?_⟩
    rw [h.profile, Option.map_id']
  | protect id q hopen h =>
    refine .inl ⟨h.edges_eq fun id' p => by split <;> rfl, fun id' hbases => ?_⟩
    refine isListed_congr h.options ?_
    -- The protection is that of a class without bases.
    have hslot : id.slot ≠ id'.slot := by
      intro hslot
      rw [bases_eq_relations?, ← a.relations?_eq_of_slot hslot, ← bases_eq_relations?] at hbases
      exact hbases (hopen rfl)
    rw [h.profile, Option.map_map]
    simp only [Function.comp_def, hslot, if_false]
  | link child edge hchild hparent hne h =>
    have hrelations := h.relations?_eq
    have hholds {id id' : EntityId} (hid : a.HoldsClass id) (hslot : id.slot = id'.slot) :
        ∃ r, a.relations? id' = some r := by
      rw [← a.relations?_eq_of_slot hslot]
      exact (holdsClass_iff.mp hid).2
    refine .inr ⟨child, edge, hchild, hparent, hne, fun id => ?_, fun id => ?_, fun id => ?_,
      fun id => ?_⟩
    · rw [bases_eq_relations?, bases_eq_relations?, hrelations]
      split
      · next hslot =>
        obtain ⟨r, hr⟩ := hholds hchild hslot
        simp [hr, linked, hslot]
      · next hslot =>
        cases a.relations? id <;> simp [linked, hslot]
    · rw [derived_eq_relations?, derived_eq_relations?, hrelations]
      split
      · next hslot =>
        obtain ⟨r, hr⟩ := hholds hparent hslot.1
        simp [hr, linked, hslot]
      · next hslot =>
        cases a.relations? id <;> simp [linked, hslot]
    · rw [categoryOf_eq_relations?, hrelations, Option.bind_map, categoryOf_eq_relations?]
      rfl
    · refine isListed_congr h.options ?_
      rw [h.profile, Option.map_map]
      rfl
  | extend _ _ hstrict | donate _ _ _ hstrict => cases hstrict
  | declare name kind hnames h =>
    refine .inl (h.keepsEdges (fun r hr => ?_) (fun _ _ => rfl) fun _ _ => rfl)
    cases hkind : kind.isNamespaceLike with
    | true => simp [hkind] at hr
    | false =>
      obtain rfl : Relations.empty = r := by simpa [hkind] using hr
      exact ⟨rfl, rfl, rfl⟩
  | spawn table template key name kind htemplate hkind hkey hfree hnames h =>
    refine .inl (h.keepsEdges (fun r hr => ?_) (fun id p => ?_) fun id p => ?_)
    · cases hr
      exact ⟨rfl, rfl, rfl⟩
    · split
      · unfold Profile.mapRelations
        rw [Option.map_map]
        rfl
      · rfl
    · split <;> rfl

/-! ## Both ends of an edge -/

/-- The derived classes of a class say what their bases say, as far as they are listed. No class is
its own base. -/
structure IsPaired (a : Atlas) : Prop where
  terms : ∀ child parent, 0 < child.number → 0 < parent.number →
    (BaseEdge.termsTo child (a.derived parent)).Perm
      (if a.isListed child = true then BaseEdge.termsTo parent (a.bases child) else [])
  ne : ∀ child, 0 < child.number → ∀ edge ∈ a.bases child, edge.target ≠ child

theorem insertDerived_perm (a : Atlas) (edge : BaseEdge) (edges : List BaseEdge) :
    (a.insertDerived edge edges).Perm (edge :: edges) := by
  induction edges with
  | nil => exact .refl _
  | cons other rest ih =>
    unfold insertDerived
    split
    · exact .refl _
    · exact (ih.cons other).trans (.swap edge other rest)

theorem KeepsEdges.eqs (h : a.KeepsEdges b) (id : EntityId) :
    b.bases id = a.bases id ∧ b.derived id = a.derived id ∧ b.categoryOf id = a.categoryOf id :=
  eqs_of_edges_eq (h.edges id)

theorem IsPaired.of_keepsEdges (h : a.IsPaired) (hkeeps : a.KeepsEdges b) : b.IsPaired := by
  have hedges := hkeeps.eqs
  refine ⟨fun child parent hchild hparent => ?_, fun child hchild => ?_⟩
  · have hterms := h.terms child parent hchild hparent
    rw [(hedges parent).2.1, (hedges child).1]
    by_cases hbases : a.bases child = []
    · simpa [hbases, BaseEdge.termsTo] using hterms
    · rwa [hkeeps.listed child hbases]
  · rw [(hedges child).1]
    exact h.ne child hchild

theorem IsPaired.of_links (h : a.IsPaired) (hlinks : a.Links b child edge) : b.IsPaired := by
  have heq {id id' : EntityId} (hid : a.HoldsClass id) (hid' : 0 < id'.number) :
      id.slot = id'.slot ↔ id = id' :=
    ⟨EntityId.eq_of_slot hid.1 hid', fun heq => heq ▸ rfl⟩
  refine ⟨fun c p hc hp => ?_, fun c hc => ?_⟩
  · have hterms := h.terms c p hc hp
    have hbases := hlinks.bases c
    have hderived := hlinks.derived p
    simp only [heq hlinks.holdsChild hc] at hbases
    simp only [heq hlinks.holdsParent hp] at hderived
    rw [hlinks.listed, hbases, hderived]
    -- The lists that change are those of the child and, if it is listed, of the parent.
    by_cases hchild : child = c
    · subst hchild
      cases hlisted : a.isListed child with
      | false => simpa [hlisted] using hterms
      | true =>
        simp only [hlisted, and_true, if_true] at hterms ⊢
        by_cases hparent : edge.target = p
        · have hinserted : (BaseEdge.termsTo child
              (a.insertDerived (edge.toDerived child) (a.derived p))).Perm
              (edge.terms :: BaseEdge.termsTo child (a.derived p)) := by
            have hperm := ((a.insertDerived_perm (edge.toDerived child) (a.derived p)).filter
              fun edge => edge.target = child).map (·.terms)
            simpa [BaseEdge.termsTo, BaseEdge.toDerived, BaseEdge.terms] using hperm
          rw [if_pos hparent]
          refine hinserted.trans ((hterms.cons edge.terms).trans ?_)
          simpa [BaseEdge.termsTo, hparent] using (List.perm_append_singleton _ _).symm
        · simpa [hparent, BaseEdge.termsTo] using hterms
    · rw [if_neg hchild]
      refine .trans ?_ hterms
      split
      · have hperm := ((a.insertDerived_perm (edge.toDerived child) (a.derived p)).filter
          fun edge => edge.target = c).map (·.terms)
        simpa [BaseEdge.termsTo, BaseEdge.toDerived, hchild] using hperm
      · exact .refl _
  · intro edge' hedge'
    rw [hlinks.bases] at hedge'
    split at hedge'
    · next hslot =>
      rcases List.mem_append.mp hedge' with hedge' | hedge'
      · exact h.ne c hc edge' hedge'
      · rw [List.mem_singleton.mp hedge', ← (heq hlinks.holdsChild hc).mp hslot]
        exact hlinks.ne
    · exact h.ne c hc edge' hedge'

theorem IsPaired.exists_base (h : a.IsPaired) (hchild : 0 < child.number)
    (hparent : 0 < parent.number) (hlisted : ∃ edge ∈ a.derived parent, edge.target = child) :
    ∃ edge ∈ a.bases child, edge.target = parent := by
  have hterms := h.terms child parent hchild hparent
  rw [← BaseEdge.termsTo_ne_nil_iff] at hlisted ⊢
  intro hnone
  rw [hnone, ite_self, List.perm_nil] at hterms
  exact hlisted hterms

theorem IsPaired.empty : (Atlas.empty options).IsPaired := by
  constructor
  · intro child parent _ _
    split <;> exact .refl _
  · intro child _ edge hedge
    cases hedge

theorem Changes.isPaired (h : Changes true a b) (hpaired : a.IsPaired) : b.IsPaired := by
  induction h with
  | refl => exact hpaired
  | tail _ hstep ih =>
    rcases hstep.edges_cases with hkeeps | ⟨child, edge, hlinks⟩
    · exact ih.of_keepsEdges hkeeps
    · exact ih.of_links hlinks

/-! ## The order of derived classes -/

/-- One class may stand before another one in a list of derived classes: it has the smaller
lower-cased name, or the same and no greater number. -/
def InOrder (a : Atlas) (x y : EntityId) : Prop :=
  Text.lowercase (a.name x) < Text.lowercase (a.name y) ∨
    Text.lowercase (a.name x) = Text.lowercase (a.name y) ∧ x.number ≤ y.number

instance (a : Atlas) (x y : EntityId) : Decidable (a.InOrder x y) :=
  inferInstanceAs (Decidable (_ ∨ _))

/-- All derived classes are in order. -/
def IsSorted (a : Atlas) : Prop :=
  ∀ id, (a.derived id).Pairwise fun x y => a.InOrder x.target y.target

theorem InOrder.trans {z : EntityId} (h : a.InOrder x y) (h' : a.InOrder y z) : a.InOrder x z := by
  rcases h with hlt | ⟨heq, hle⟩
  · rcases h' with hlt' | ⟨heq', -⟩
    · exact .inl (String.lt_trans hlt hlt')
    · exact .inl (heq' ▸ hlt)
  · rcases h' with hlt' | ⟨heq', hle'⟩
    · exact .inl (heq ▸ hlt')
    · exact .inr ⟨heq.trans heq', Nat.le_trans hle hle'⟩

theorem inOrder_of_isAfter (h : isAfter (a.name y) y (a.name x) x = true) : a.InOrder x y := by
  simp only [isAfter, Bool.or_eq_true, decide_eq_true_eq, Bool.and_eq_true, beq_iff_eq] at h
  exact h.imp_right fun h => ⟨h.1.symm, Nat.le_of_lt h.2⟩

theorem inOrder_of_not_isAfter (h : ¬ isAfter (a.name x) x (a.name y) y = true) :
    a.InOrder x y := by
  simp only [isAfter, Bool.or_eq_true, decide_eq_true_eq, Bool.and_eq_true, beq_iff_eq, not_or,
    not_and] at h
  by_cases hlt : Text.lowercase (a.name x) < Text.lowercase (a.name y)
  · exact .inl hlt
  · have heq : Text.lowercase (a.name x) = Text.lowercase (a.name y) :=
      String.le_antisymm (String.not_lt.mp h.1) (String.not_lt.mp hlt)
    exact .inr ⟨heq, Nat.not_lt.mp (h.2 heq)⟩

theorem pairwise_insertDerived (a : Atlas) (edge : BaseEdge) {edges : List BaseEdge}
    (h : edges.Pairwise fun x y => a.InOrder x.target y.target) :
    (a.insertDerived edge edges).Pairwise fun x y => a.InOrder x.target y.target := by
  induction edges with
  | nil => exact List.pairwise_singleton _ _
  | cons other rest ih =>
    obtain ⟨hother, hrest⟩ := List.pairwise_cons.mp h
    unfold insertDerived
    split
    · next hafter =>
      have hfirst := inOrder_of_isAfter hafter
      refine List.pairwise_cons.mpr ⟨fun y hy => ?_, h⟩
      rcases List.mem_cons.mp hy with rfl | hy
      · exact hfirst
      · exact hfirst.trans (hother y hy)
    · next hafter =>
      refine List.pairwise_cons.mpr ⟨?_, ih hrest⟩
      exact a.forall_mem_insertDerived (inOrder_of_not_isAfter hafter) hother

theorem IsWired.holdsClass_of_mem_edges (ha : a.IsWired)
    (h : edge ∈ a.bases id ∨ edge ∈ a.derived id) : a.HoldsClass edge.target := by
  rw [bases_eq_relations?, derived_eq_relations?] at h
  cases hr : a.relations? id with
  | none => simp [hr] at h
  | some r =>
    rw [hr] at h
    exact h.elim ((ha.relations id r hr).bases edge) ((ha.relations id r hr).derived edge)

theorem Change.name_eq {isStrict : Bool} (h : Change isStrict a b) {id : EntityId}
    (hid : id.slot < a.entities.size) : b.name id = a.name id := by
  obtain ⟨p, hp⟩ := Option.isSome_iff_exists.mp ((a.isSome_profile?_iff id).mpr hid)
  obtain ⟨p', hp', hgrows⟩ := h.grows hp
  rw [name_eq_profile?, name_eq_profile?, hp, hp', Option.map_some, Option.map_some, hgrows.name]

theorem Change.isSorted (h : Change true a b) (hsorted : a.IsSorted) (ha : a.IsWired) :
    b.IsSorted := by
  have hname {id : EntityId} (hid : a.HoldsClass id) := h.name_eq hid.holds.slot_lt
  have hkept {edges : List BaseEdge} (hedges : ∀ edge ∈ edges, a.HoldsClass edge.target)
      (hpairs : edges.Pairwise fun x y => a.InOrder x.target y.target) :
      edges.Pairwise fun x y => b.InOrder x.target y.target := by
    refine hpairs.imp_of_mem fun hx hy hinOrder => ?_
    rwa [InOrder, hname (hedges _ hx), hname (hedges _ hy)]
  have hheld (id : EntityId) : ∀ edge ∈ a.derived id, a.HoldsClass edge.target :=
    fun edge hedge => ha.holdsClass_of_mem_edges (.inr hedge)
  intro id
  rcases h.edges_cases with hkeeps | ⟨child, edge, hlinks⟩
  · rw [(hkeeps.eqs id).2.1]
    exact hkept (hheld id) (hsorted id)
  · rw [hlinks.derived]
    split
    · exact hkept (a.forall_mem_insertDerived hlinks.holdsChild (hheld id))
        (a.pairwise_insertDerived _ (hsorted id))
    · exact hkept (hheld id) (hsorted id)

theorem Changes.isSorted (h : Changes true a b) (hsorted : a.IsSorted) (ha : a.IsWired) :
    b.IsSorted := by
  induction h with
  | refl => exact hsorted
  | tail hbefore hstep ih => exact hstep.isSorted ih (Changes.isWired hbefore ha)

theorem IsSorted.empty : (Atlas.empty options).IsSorted := by
  intro id
  exact .nil

theorem Changes.categoryOf_eq (h : Changes true a b) (id : EntityId) :
    b.categoryOf id = a.categoryOf id := by
  induction h with
  | refl => rfl
  | tail _ hstep ih =>
    rcases hstep.edges_cases with hkeeps | ⟨child, edge, hlinks⟩
    · exact (hkeeps.eqs id).2.2.trans ih
    · exact (hlinks.categoryOf id).trans ih

/-! ## Searching from either end -/

theorem derivedGraph_edge_iff (a : Atlas) (x y : EntityId) :
    a.derivedGraph.Edge x y ↔ ∃ edge ∈ a.derived x, edge.target = y := by
  unfold Graph.Edge derivedGraph
  simp

theorem mem_entityNumbers_of_mem_derived {id : EntityId} (h : edge ∈ a.derived id) :
    id ∈ a.entityNumbers := by
  rw [derived_eq_relations?] at h
  cases hr : a.relations? id with
  | none => simp [hr] at h
  | some r =>
    exact mem_entityNumbers_of_entity? (Array.getElem?_eq_getElem (slot_lt_of_relations? hr))

theorem isRooted_derivedGraph (a : Atlas) : a.derivedGraph.IsRooted := by
  intro x y hedge
  obtain ⟨edge, hmem, -⟩ := (a.derivedGraph_edge_iff x y).mp hedge
  exact mem_nodes_spanning (mem_entityNumbers_of_mem_derived hmem) _

theorem reaches_iff {g : Graph EntityId} (hrooted : g.IsRooted)
    (hbound : a.options.maxInheritanceDepth = 0) (start target : EntityId) :
    (a.reaches g start target).value = true ↔ ∃ length, g.Walk start (length + 1) target := by
  constructor
  · intro h
    obtain ⟨step, hstep, htarget⟩ := looksAt_of_meets h
    obtain ⟨length, x, hwalk, -, hedge, -⟩ := g.isOnWalk_steps _ start step hstep target htarget
    exact ⟨length, hwalk.tail hedge⟩
  · rintro ⟨length, hwalk⟩
    exact reaches_of_walk hrooted (fun _ _ _ => .inl hbound) hwalk

theorem IsPaired.edge_iff (h : a.IsPaired) (hprivate : a.options.extractPrivate = true)
    (hchild : 0 < child.number) (hparent : 0 < parent.number) :
    a.derivedGraph.Edge parent child ↔ (a.baseGraph true).Edge child parent := by
  have hlisted : a.isListed child = true ∨ a.bases child = [] := by
    unfold isListed
    cases he : a.entity? child with
    | none => exact .inr (by simp [bases, class?, he])
    | some e => exact .inl (by simp [hprivate])
  have hterms := h.terms child parent hchild hparent
  rw [derivedGraph_edge_iff, baseGraph_edge_iff, ← BaseEdge.termsTo_ne_nil_iff,
    ← BaseEdge.termsTo_ne_nil_iff, not_iff_not, ← List.perm_nil, ← List.perm_nil]
  rcases hlisted with hlisted | hnone
  · rw [if_pos hlisted] at hterms
    exact ⟨hterms.symm.trans, hterms.trans⟩
  · rw [hnone] at hterms ⊢
    have hnil : BaseEdge.termsTo parent [] = [] := rfl
    rw [hnil, ite_self] at hterms
    exact ⟨fun _ => hnil ▸ .refl _, fun _ => hterms⟩

/-- Where private classes are listed and there is no bound, a search for a derived class finds what a
search for its base finds. -/
theorem IsPaired.isDerived_eq_isBase (h : a.IsPaired) (ha : a.IsWired)
    (hprivate : a.options.extractPrivate = true) (hbound : a.options.maxInheritanceDepth = 0)
    (hchild : 0 < child.number) (hparent : 0 < parent.number) :
    (a.isDerived parent child).value = (a.isBase child parent true).value := by
  rw [Bool.eq_iff_iff, isDerived, isBase, reaches_iff a.isRooted_derivedGraph hbound,
    reaches_iff a.isRooted_baseGraph hbound]
  have hup (x y : EntityId) (hedge : (a.baseGraph true).Edge x y) : 0 < y.number := by
    obtain ⟨edge, hmem, rfl⟩ := (a.baseGraph_edge_iff x y).mp hedge
    exact (ha.holdsClass_of_mem_edges (.inl hmem)).1
  have hdown (x y : EntityId) (hedge : a.derivedGraph.Edge x y) : 0 < y.number := by
    obtain ⟨edge, hmem, rfl⟩ := (a.derivedGraph_edge_iff x y).mp hedge
    exact (ha.holdsClass_of_mem_edges (.inr hmem)).1
  refine exists_congr fun length => ⟨fun hwalk => ?_, fun hwalk => ?_⟩
  -- A walk one way, gone back edge by edge, is a walk the other way.
  · exact (hwalk.reverse (fun x y _ => hdown x y)
      (fun x y hx hedge => (h.edge_iff hprivate (hdown x y hedge) hx).mp hedge) hparent).2
  · exact (hwalk.reverse (fun x y _ => hup x y)
      (fun x y hx hedge => (h.edge_iff hprivate hx (hup x y hedge)).mpr hedge) hchild).2

/-! ## Whatever is done -/

/-- Whatever is done to an empty atlas, as long as protections are given before bases: the derived
classes of a class say what the bases of these classes say, except that private classes are left out
where the options say so. Without a bound and with private classes, looking for the derived class and
looking for the base comes to the same. No class is its own base. -/
theorem bases_and_derived (options : Options) (operations : List Operation)
    (h : Operation.AreOrderly (.empty options) operations) :
    let a := Operation.performAll (.empty options) operations
    (∀ child parent e, a.HoldsClass child → a.HoldsClass parent → a.entity? child = some e →
      (options.extractPrivate = true ∨ e.protection ≠ .priv →
        (BaseEdge.termsTo child (a.derived parent)).Perm
          (BaseEdge.termsTo parent (a.bases child))) ∧
      (¬ (options.extractPrivate = true ∨ e.protection ≠ .priv) →
        ∀ edge ∈ a.derived parent, edge.target ≠ child)) ∧
    (options.extractPrivate = true → options.maxInheritanceDepth = 0 →
      ∀ child parent, a.HoldsClass child → a.HoldsClass parent →
        (a.isDerived parent child).value = (a.isBase child parent true).value) ∧
    ∀ child, a.HoldsClass child → ∀ edge ∈ a.bases child, edge.target ≠ child := by
  intro a
  have hchanges : Changes true (.empty options) a :=
    Operation.changes_performAll operations (.empty options) fun _ => h
  have hpaired : a.IsPaired := hchanges.isPaired (.empty options)
  have hoptions : a.options = options := hchanges.options
  refine ⟨fun child parent e hchild hparent he => ?_,
    fun hprivate hbound child parent hchild hparent => ?_,
    fun child hchild => hpaired.ne child hchild.1⟩
  · have hterms := hpaired.terms child parent hchild.1 hparent.1
    have hlisted : a.isListed child = true ↔
        options.extractPrivate = true ∨ e.protection ≠ .priv := by
      rw [isListed, he, hoptions]
      cases options.extractPrivate <;> simp
    refine ⟨fun hopen => ?_, fun hclosed edge hedge htarget => ?_⟩
    · rwa [if_pos (hlisted.mpr hopen)] at hterms
    · rw [if_neg fun hl => hclosed (hlisted.mp hl), List.perm_nil] at hterms
      simp only [BaseEdge.termsTo, List.map_eq_nil_iff, List.filter_eq_nil_iff,
        decide_eq_true_eq] at hterms
      exact hterms edge hedge htarget
  · exact hpaired.isDerived_eq_isBase (hchanges.isWired (.empty options)) (hoptions ▸ hprivate)
      (hoptions ▸ hbound) hchild.1 hparent.1

/-- A class with a derived class that has a private class derived from it, which is derived from the
first one as well. -/
def secrecy : List Operation :=
  [.register "Top" .classKind {}, .register "Open" .classKind {}, .register "Hidden" .classKind {},
    .amend ⟨3⟩ { apply := fun e => { e with protection := .priv }, keeps := fun _ => rfl },
    .insertBase 2 1
      { target := ⟨1⟩, protection := .prot, virtualness := .virtual },
    .insertBase 3 2 { target := ⟨2⟩ },
    .insertBase 3 1 { target := ⟨1⟩ }]

theorem areOrderly_secrecy : Operation.AreOrderly (.empty options) secrecy :=
  ⟨trivial, trivial, trivial, .inl rfl, trivial, trivial, trivial, trivial⟩

/-- The private class is derived from the first one wherever one looks, but listed with it only if
private classes are. -/
theorem bases_and_derived_secrecy :
    let a := Operation.performAll (.empty { extractPrivate := true, maxInheritanceDepth := 0 }) secrecy
    let b := Operation.performAll (.empty {}) secrecy
    (BaseEdge.termsTo ⟨2⟩ (a.derived ⟨1⟩)).Perm (BaseEdge.termsTo ⟨1⟩ (a.bases ⟨2⟩)) ∧
      BaseEdge.termsTo ⟨1⟩ (a.bases ⟨2⟩) = [(.prot, .virtual, "")] ∧
      (a.isDerived ⟨1⟩ ⟨3⟩).value = (a.isBase ⟨3⟩ ⟨1⟩ true).value ∧
      (a.isBase ⟨3⟩ ⟨1⟩ true).value = true ∧
      (b.bases ⟨3⟩).map (·.target) = [⟨2⟩, ⟨1⟩] ∧ ∀ edge ∈ b.derived ⟨1⟩, edge.target ≠ ⟨3⟩ := by
  intro a b
  have hholds (id : EntityId) (hid : id ∈ [(⟨1⟩ : EntityId), ⟨2⟩, ⟨3⟩]) :
      a.HoldsClass id ∧ b.HoldsClass id := by
    have hpos : ∀ id ∈ [(⟨1⟩ : EntityId), ⟨2⟩, ⟨3⟩], 0 < id.number := by decide
    have hclass : ∀ id ∈ [(⟨1⟩ : EntityId), ⟨2⟩, ⟨3⟩],
        (a.class? id).isSome = true ∧ (b.class? id).isSome = true := by decide +kernel
    exact ⟨(holdsClass_and_class? a id (hpos id hid) (hclass id hid).1).1,
      (holdsClass_and_class? b id (hpos id hid) (hclass id hid).2).1⟩
  obtain ⟨hterms, hsearch, -⟩ := bases_and_derived { extractPrivate := true, maxInheritanceDepth := 0 }
    secrecy (areOrderly_secrecy _)
  obtain ⟨hhidden, -, -⟩ := bases_and_derived {} secrecy (areOrderly_secrecy _)
  obtain ⟨e, he⟩ : ∃ e, a.entity? ⟨2⟩ = some e := Option.isSome_iff_exists.mp (by decide +kernel)
  have hprotection : (b.entity? ⟨3⟩).map (·.protection) = some .priv := by decide +kernel
  obtain ⟨e', he', hprivate⟩ := Option.map_eq_some_iff.mp hprotection
  refine ⟨(hterms ⟨2⟩ ⟨1⟩ e (hholds _ (by decide)).1 (hholds _ (by decide)).1 he).1 (.inl rfl),
    by decide +kernel, hsearch rfl rfl ⟨3⟩ ⟨1⟩ (hholds _ (by decide)).1 (hholds _ (by decide)).1,
    by decide +kernel, by decide +kernel, ?_⟩
  refine (hhidden ⟨3⟩ ⟨1⟩ e' (hholds _ (by decide)).2 (hholds _ (by decide)).2 he').2 ?_
  rintro (hextract | hopen)
  · cases hextract
  · exact hopen hprivate

end Atlas

end SymbolAtlas
