import SymbolAtlas.Proofs.Graph.PostOrder
import SymbolAtlas.Proofs.Inheritance.Merging

/-!
# Bases before derived classes

Without cycles, and as far as the bound on the depth lets it, merging reaches every class after all
its bases. What every such step keeps is kept by merging from one class and by merging all of them.
-/

set_option autoImplicit false

namespace SymbolAtlas.Atlas

variable {start x : EntityId} {edge : BaseEdge}

variable {a b : Atlas} {id : EntityId} {P : Atlas → Prop}

/-- A chain of base edges from a class to what the last of them leads to. -/
inductive BaseChain (a : Atlas) : EntityId → List BaseEdge → EntityId → Prop where
  | nil (id : EntityId) : BaseChain a id [] id
  | cons {id base : EntityId} {edge : BaseEdge} {edges : List BaseEdge} (h : edge ∈ a.bases id)
      (rest : BaseChain a edge.target edges base) : BaseChain a id (edge :: edges) base

/-- No chain of base edges leads back to where it starts. -/
def IsAcyclic (a : Atlas) : Prop :=
  ∀ id edges, a.BaseChain id edges id → edges = []

/-- The depth of inheritance is not bounded, or no chain of base edges is longer than the bound. -/
def IsWithinDepth (a : Atlas) : Prop :=
  a.options.maxInheritanceDepth = 0 ∨
    ∀ id edges base, a.BaseChain id edges base → edges.length ≤ a.options.maxInheritanceDepth

namespace BaseChain

variable {a : Atlas} {id mid base : EntityId} {edges edges' : List BaseEdge}

theorem append (h : a.BaseChain id edges mid) (h' : a.BaseChain mid edges' base) :
    a.BaseChain id (edges ++ edges') base := by
  induction h with
  | nil => exact h'
  | cons hedge _ ih => exact .cons hedge (ih h')

theorem slot_lt_of_mem_bases (h : edge ∈ a.bases id) : id.slot < a.entities.size := by
  by_cases hlt : id.slot < a.entities.size
  · exact hlt
  · have hnone : a.entity? id = none := Array.getElem?_eq_none (Nat.le_of_not_lt hlt)
    simp [bases, class?, hnone] at h

/-- Where every edge leads to an earlier entity, a chain is no longer than the entities before its
start. -/
theorem length_le_slot
    (hearlier : ∀ slot, slot < a.entities.size → ∀ edge ∈ a.bases (.ofSlot slot),
      edge.target.slot < slot)
    (h : a.BaseChain id edges base) : edges.length + base.slot ≤ id.slot := by
  induction h with
  | nil => simp
  | @cons id base edge edges hedge _ ih =>
    have hlt := hearlier id.slot (slot_lt_of_mem_bases hedge) edge hedge
    simp only [List.length_cons]
    omega

end BaseChain

theorem Resembles.baseChain (h : a.Resembles b) {base : EntityId} {edges : List BaseEdge}
    (hchain : a.BaseChain id edges base) : b.BaseChain id edges base := by
  induction hchain with
  | nil id => exact .nil id
  | cons hedge _ ih => exact .cons (h.bases _ ▸ hedge) ih

theorem Resembles.isAcyclic (h : a.Resembles b) (ha : a.IsAcyclic) : b.IsAcyclic :=
  fun id edges hchain => ha id edges (h.symm.baseChain hchain)

theorem Resembles.isWithinDepth (h : a.Resembles b) (ha : a.IsWithinDepth) : b.IsWithinDepth := by
  unfold IsWithinDepth at ha ⊢
  rw [← h.options]
  rcases ha with hzero | hlength
  · exact .inl hzero
  · exact .inr fun id edges base hchain => hlength id edges base (h.symm.baseChain hchain)

theorem isAcyclic_of_earlier
    (hearlier : ∀ slot, slot < a.entities.size → ∀ edge ∈ a.bases (.ofSlot slot),
      edge.target.slot < slot) : a.IsAcyclic := by
  intro id edges h
  have hlength := h.length_le_slot hearlier
  exact List.length_eq_zero_iff.mp (by omega)

theorem isWithinDepth_of_earlier
    (hearlier : ∀ slot, slot < a.entities.size → ∀ edge ∈ a.bases (.ofSlot slot),
      edge.target.slot < slot) (hsize : a.entities.size ≤ a.options.maxInheritanceDepth + 1) :
    a.IsWithinDepth := by
  refine .inr fun id edges base h => ?_
  have hlength := h.length_le_slot hearlier
  cases h with
  | nil => simp
  | cons hedge _ =>
    have hlt := BaseChain.slot_lt_of_mem_bases hedge
    omega

theorem baseGraph_edge_iff (a : Atlas) (x y : EntityId) :
    (a.baseGraph true).Edge x y ↔ ∃ edge ∈ a.bases x, edge.target = y := by
  unfold Graph.Edge baseGraph
  simp

theorem exists_baseChain {y : EntityId} (h : Relation.ReflTransGen (a.baseGraph true).Edge x y) :
    ∃ edges, a.BaseChain x edges y := by
  induction h using Relation.ReflTransGen.head_induction_on with
  | refl => exact ⟨[], .nil y⟩
  | head hedge _ ih =>
    obtain ⟨edge, hmem, rfl⟩ := (a.baseGraph_edge_iff _ _).mp hedge
    obtain ⟨edges, hchain⟩ := ih
    exact ⟨edge :: edges, .cons hmem hchain⟩

theorem exists_baseChain_of_isChain {nodes : List EntityId}
    (h : (x :: nodes).IsChain fun x y => (a.baseGraph true).Edge y x) :
    ∃ start edges, a.BaseChain start edges x ∧ edges.length = nodes.length := by
  induction nodes generalizing x with
  | nil => exact ⟨x, [], .nil x, rfl⟩
  | cons z rest ih =>
    obtain ⟨hedge, hrest⟩ := List.isChain_cons_cons.mp h
    obtain ⟨edge, hmem, rfl⟩ := (a.baseGraph_edge_iff _ _).mp hedge
    obtain ⟨start, edges, hchain, hlength⟩ := ih hrest
    refine ⟨start, edges ++ [edge], hchain.append (.cons hmem (.nil _)), ?_⟩
    rw [List.length_append, hlength]
    rfl

theorem IsWithinDepth.walksWithin (h : a.IsWithinDepth) :
    (a.baseGraph true).WalksWithin a.options.maxInheritanceDepth := by
  rcases h with hzero | hlength
  · exact .inl hzero
  · refine .inr fun nodes hnodes => ?_
    cases nodes with
    | nil => simp
    | cons x nodes =>
      obtain ⟨start, edges, hchain, heq⟩ := exists_baseChain_of_isChain hnodes
      have := hlength start edges x hchain
      simp only [List.length_cons]
      omega

/-! ## The order of merging -/

theorem isUnmerged_congr {b : Atlas} {id' : EntityId} (h : a.entity? id = b.entity? id') :
    a.isUnmerged id = b.isUnmerged id' := by
  unfold isUnmerged class?
  rw [h]

theorem class?_of_isUnmerged (h : a.isUnmerged id = true) :
    ∃ e c, a.entity? id = some e ∧ e.class? = some c ∧ c.isMerged = false := by
  unfold isUnmerged at h
  cases hclass : a.class? id with
  | none => simp [hclass] at h
  | some c =>
    obtain ⟨e, he, hbody⟩ := (a.class?_eq_some_iff id c).mp hclass
    exact ⟨e, c, he, hbody, by simpa [hclass] using h⟩

theorem mem_mergeOrder (h : a.isUnmerged start = true) : start ∈ (a.mergeOrder start).value := by
  unfold mergeOrder
  rw [if_pos h]
  exact ((a.baseGraph true).finished_steps _ start).1

theorem mem_mergeOrder_before (hacyclic : a.IsAcyclic) (hdepth : a.IsWithinDepth) {u : EntityId}
    {before after : List EntityId} (heq : (a.mergeOrder start).value = before ++ u :: after)
    (hedge : edge ∈ a.bases u) (hunmerged : a.isUnmerged edge.target = true) :
    edge.target ∈ before := by
  unfold mergeOrder at heq
  split at heq
  · obtain ⟨e, c, he, -, -⟩ := class?_of_isUnmerged hunmerged
    have hgraph : (a.baseGraph true).Edge u edge.target :=
      (a.baseGraph_edge_iff u edge.target).mpr ⟨edge, hedge, rfl⟩
    have hnode := Graph.mem_nodes_spanning (mem_entityNumbers_of_entity? he) (a.baseGraph true).next
    rcases (a.baseGraph true).mem_before_or_back _ (.of_injective Function.injective_id)
      hdepth.walksWithin trivial heq hgraph hnode hunmerged with hmem | ⟨-, hback⟩
    · exact hmem
    · obtain ⟨edges, hchain⟩ := exists_baseChain (.mono (fun _ _ hentry => hentry.1) _ _ hback)
      exact absurd (hacyclic u _ (.cons hedge hchain)) (by simp)
  · exact absurd heq (by simp)

theorem isUnmerged_mergeOne (a : Atlas) (u id : EntityId) :
    (a.mergeOne u).value.isUnmerged id = true ↔ a.isUnmerged id = true ∧ u.slot ≠ id.slot := by
  rw [value_mergeOne]
  split
  · unfold isUnmerged class?
    rw [entity?_modifyEntity]
    split
    · next hslot =>
      cases a.entity? id with
      | none => simp
      | some e =>
        have hmerged := e.isMerged_mergedIn (a.setAside u)
        cases hclass : (e.mergedIn (a.setAside u)).class? with
        | none => simp [hclass, hslot]
        | some c => simp [hclass, hslot, hmerged c hclass]
    · next hslot => simp [hslot]
  · next hu =>
    constructor
    · intro hid
      refine ⟨hid, fun hslot => hu ?_⟩
      unfold isUnmerged class? entity? at hid ⊢
      rw [hslot]
      exact hid
    · exact And.left

/-! ## What merging keeps -/

/-- Merges classes one after the other. -/
def mergeInOrder (a : Atlas) (order : List EntityId) : Atlas :=
  order.foldl (fun a id => (a.mergeOne id).value) a

theorem mergeInOrder_append (a : Atlas) (order : List EntityId) (id : EntityId) :
    a.mergeInOrder (order ++ [id]) = ((a.mergeInOrder order).mergeOne id).value := by
  unfold mergeInOrder
  rw [List.foldl_append, List.foldl_cons, List.foldl_nil]

theorem value_mergeFrom (a : Atlas) (start : EntityId) :
    (a.mergeFrom start).value.1 = a.mergeInOrder (a.mergeOrder start).value := by
  unfold mergeFrom mergeInOrder
  rw [Noted.value_bind, Noted.value_bind, Noted.value_foldlM]
  rfl

theorem value_mergeAll (a : Atlas) :
    a.mergeAll.value.1 = a.classIds.foldl (fun a id => (a.mergeFrom id).value.1) a := by
  unfold mergeAll
  generalize a.classIds = ids
  generalize 0 = count
  induction ids generalizing a count with
  | nil => rfl
  | cons id ids ih => exact ih _ _

theorem foldl_mergeFrom_induction (hP : ∀ a id, P a → P (a.mergeFrom id).value.1)
    (ids : List EntityId) (ha : P a) : P (ids.foldl (fun a id => (a.mergeFrom id).value.1) a) := by
  induction ids generalizing a with
  | nil => exact ha
  | cons id ids ih => exact ih (hP a id ha)

section Induction

variable {P : Atlas → Prop} (hP : ∀ a u, P a → P (a.mergeOne u).value) {a : Atlas}

include hP

theorem mergeFrom_induction (start : EntityId) (ha : P a) : P (a.mergeFrom start).value.1 := by
  rw [value_mergeFrom]
  exact foldl_kept hP _ ha

theorem mergeAll_induction (ha : P a) : P a.mergeAll.value.1 := by
  rw [value_mergeAll]
  exact foldl_mergeFrom_induction (fun _ start hb => mergeFrom_induction hP start hb) _ ha

end Induction

theorem resembles_mergeInOrder (a : Atlas) (order : List EntityId) :
    (a.mergeInOrder order).Resembles a := by
  induction order using List.reverseRecOn with
  | nil => exact .refl a
  | append_singleton order id ih =>
    rw [mergeInOrder_append]
    exact (resembles_mergeOne _ id).trans ih

theorem isUnmerged_mergeInOrder (a : Atlas) (order : List EntityId) (id : EntityId) :
    (a.mergeInOrder order).isUnmerged id = true ↔
      a.isUnmerged id = true ∧ ∀ u ∈ order, u.slot ≠ id.slot := by
  induction order using List.reverseRecOn with
  | nil => simp [mergeInOrder]
  | append_singleton order u ih =>
    rw [mergeInOrder_append, isUnmerged_mergeOne, ih]
    simp only [List.mem_append, List.mem_singleton, or_imp, forall_and, forall_eq, and_assoc]

theorem resembles_mergeFrom (a : Atlas) (start : EntityId) :
    (a.mergeFrom start).value.1.Resembles a := by
  rw [value_mergeFrom]
  exact a.resembles_mergeInOrder _

theorem isUnmerged_of_mergeFrom (h : (a.mergeFrom start).value.1.isUnmerged id = true) :
    a.isUnmerged id = true ∧ start.slot ≠ id.slot := by
  rw [value_mergeFrom, isUnmerged_mergeInOrder] at h
  refine ⟨h.1, fun hslot => ?_⟩
  have hstart : a.isUnmerged start = true := by
    have hid := h.1
    unfold isUnmerged class? entity? at hid ⊢
    rw [hslot]
    exact hid
  exact h.2 start (mem_mergeOrder hstart) hslot

theorem isUnmerged_foldl_mergeFrom {ids : List EntityId}
    (h : (ids.foldl (fun a id => (a.mergeFrom id).value.1) a).isUnmerged id = true) :
    a.isUnmerged id = true ∧ ∀ u ∈ ids, u.slot ≠ id.slot := by
  induction ids generalizing a with
  | nil => exact ⟨h, by simp⟩
  | cons u ids ih =>
    obtain ⟨hid, hids⟩ := ih h
    obtain ⟨hid, hslot⟩ := isUnmerged_of_mergeFrom hid
    exact ⟨hid, by simpa [hslot] using hids⟩

/-- Kept whenever a class is merged whose bases are all merged. -/
def KeptByMerging (a : Atlas) (P : Atlas → Prop) : Prop :=
  ∀ b u, b.Resembles a → P b → b.isUnmerged u = true →
    (∀ edge ∈ a.bases u, b.isUnmerged edge.target = false) → P (b.mergeOne u).value

/-- The run lemma for orders with bases first. -/
theorem KeptByMerging.mergeInOrder (hP : a.KeptByMerging P) (hb : b.Resembles a) (hPb : P b)
    {order : List EntityId}
    (hready : ∀ before u after, order = before ++ u :: after → ∀ edge ∈ a.bases u,
      b.isUnmerged edge.target = true → edge.target ∈ before) : P (b.mergeInOrder order) := by
  induction order using List.reverseRecOn with
  | nil => exact hPb
  | append_singleton order u ih =>
    have hbefore : P (b.mergeInOrder order) := by
      refine ih fun before u' after heq => hready before u' (after ++ [u]) ?_
      rw [heq, List.append_assoc, List.cons_append]
    rw [mergeInOrder_append]
    by_cases hu : (b.mergeInOrder order).isUnmerged u = true
    · refine hP _ u ((b.resembles_mergeInOrder order).trans hb) hbefore hu fun edge hedge => ?_
      rw [Bool.eq_false_iff]
      intro hunmerged
      obtain ⟨htarget, hslots⟩ := (b.isUnmerged_mergeInOrder order edge.target).mp hunmerged
      exact hslots _ (hready order u [] rfl edge hedge htarget) rfl
    · rw [value_mergeOne, if_neg hu]
      exact hbefore

theorem KeptByMerging.mergeFrom (hP : a.KeptByMerging P) (hacyclic : a.IsAcyclic)
    (hdepth : a.IsWithinDepth) (hb : b.Resembles a) (hPb : P b) (start : EntityId) :
    P (b.mergeFrom start).value.1 := by
  rw [value_mergeFrom]
  refine hP.mergeInOrder hb hPb fun before u after heq edge hedge hunmerged => ?_
  rw [← hb.bases] at hedge
  exact mem_mergeOrder_before (hb.symm.isAcyclic hacyclic) (hb.symm.isWithinDepth hdepth) heq hedge
    hunmerged

theorem KeptByMerging.foldl_mergeFrom (hP : a.KeptByMerging P) (hacyclic : a.IsAcyclic)
    (hdepth : a.IsWithinDepth) (hb : b.Resembles a) (hPb : P b) (ids : List EntityId) :
    P (ids.foldl (fun b id => (b.mergeFrom id).value.1) b) := by
  have hboth : ∀ b id, b.Resembles a ∧ P b →
      (b.mergeFrom id).value.1.Resembles a ∧ P (b.mergeFrom id).value.1 :=
    fun b id ⟨hb, hPb⟩ =>
      ⟨(b.resembles_mergeFrom id).trans hb, hP.mergeFrom hacyclic hdepth hb hPb id⟩
  exact (foldl_mergeFrom_induction hboth ids ⟨hb, hPb⟩).2

end SymbolAtlas.Atlas
