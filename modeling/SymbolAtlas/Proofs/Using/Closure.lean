import Mathlib.Data.List.Nodup
import SymbolAtlas.Proofs.Graph.PostOrder
import SymbolAtlas.Proofs.Using.Absorption

/-!
# The closure of using relations

Closing lets every namespace absorb once, those it uses before itself where that is possible. What a
namespace uses in the end is told by the order in which namespaces absorb: a walk along directives
counts if all of it but the last two steps goes down in that order, and for declarations all but the
last step. Where there are cycles, that need not be everything which can be reached.
-/

set_option autoImplicit false

namespace SymbolAtlas.Atlas

variable {a : Atlas} {n w : EntityId} {order more : List EntityId} {v : EntityId}

/-- A namespace can be reached from another one by following directives. -/
def Reaches (a : Atlas) : EntityId → EntityId → Prop :=
  Relation.ReflTransGen fun n v => v ∈ a.usedNamespaces n

/-- At most so many directives lead from a namespace to another one. -/
inductive WithinSteps (a : Atlas) : Nat → EntityId → EntityId → Prop where
  | refl (steps : Nat) (n : EntityId) : WithinSteps a steps n n
  | step {steps : Nat} {n v w : EntityId} (h : v ∈ a.usedNamespaces n)
      (rest : WithinSteps a steps v w) : WithinSteps a (steps + 1) n w

/-- A number comes in front of another one in a list. -/
def Precedes (order : List EntityId) (v n : EntityId) : Prop :=
  ∃ before after, order = before ++ n :: after ∧ v ∈ before

/-- Directives lead from a namespace to another one, and each of them, except for the last `slack`,
to a namespace that comes before the one that it leads from. -/
inductive Descends (a : Atlas) (order : List EntityId) (slack : Nat) :
    EntityId → EntityId → Prop where
  | last {n w : EntityId} (h : a.WithinSteps slack n w) : Descends a order slack n w
  | down {n v w : EntityId} (h : v ∈ a.usedNamespaces n) (hprecedes : Precedes order v n)
      (rest : Descends a order slack v w) : Descends a order slack n w

/-! ## Walks -/

theorem WithinSteps.reaches {steps : Nat} (h : a.WithinSteps steps n w) : a.Reaches n w := by
  induction h with
  | refl => exact .refl
  | step h _ ih => exact .head h ih

theorem Descends.reaches {slack : Nat} (h : a.Descends order slack n w) : a.Reaches n w := by
  induction h with
  | last h => exact h.reaches
  | down h _ _ ih => exact .head h ih

theorem Precedes.mem (h : Precedes order v n) : v ∈ order := by
  obtain ⟨before, after, rfl, hv⟩ := h
  exact List.mem_append_left _ hv

theorem Precedes.append (h : Precedes order v n) (more : List EntityId) :
    Precedes (order ++ more) v n := by
  obtain ⟨before, after, rfl, hv⟩ := h
  exact ⟨before, after ++ more, by simp, hv⟩

theorem precedes_of_append (hnodup : (order ++ more).Nodup) (hn : n ∈ order)
    (h : Precedes (order ++ more) v n) : Precedes order v n := by
  obtain ⟨before, after, heq, hv⟩ := h
  obtain ⟨before', after', rfl⟩ := List.append_of_mem hn
  rw [List.append_assoc] at heq hnodup
  have honce := (List.nodup_middle.mp hnodup).notMem
  rw [List.mem_append, not_or] at honce
  obtain ⟨rfl, -⟩ := (List.append_cons_inj_of_notMem honce.1 honce.2).mp heq
  exact ⟨before', after', rfl, hv⟩

theorem precedes_snoc_iff {u : EntityId} (hu : u ∉ order) (v : EntityId) :
    Precedes (order ++ [u]) v u ↔ v ∈ order := by
  constructor
  · rintro ⟨before, after, heq, hv⟩
    obtain ⟨rfl, -⟩ := (List.append_cons_inj_of_notMem hu List.not_mem_nil).mp heq
    exact hv
  · intro hv
    exact ⟨order, [], rfl, hv⟩

theorem descends_append_iff {slack : Nat} (hnodup : (order ++ more).Nodup) (hn : n ∈ order) :
    a.Descends (order ++ more) slack n w ↔ a.Descends order slack n w := by
  constructor
  · intro h
    induction h with
    | last h => exact .last h
    | down h hprecedes _ ih =>
      have hprecedes' := precedes_of_append hnodup hn hprecedes
      exact .down h hprecedes' (ih hprecedes'.mem)
  · intro h
    induction h with
    | last h => exact .last h
    | down h hprecedes _ ih => exact .down h (hprecedes.append more) (ih hprecedes.mem)

/-! ## One namespace after the other absorbs -/

/-- What has become of `a` after the namespaces of `order` have absorbed. -/
structure Absorbed (a b : Atlas) (order : List EntityId) : Prop where
  resembles : b.Resembles a
  sound : b.HasSoundUsing
  nodup : order.Nodup
  known : ∀ n ∈ order, n ∈ a.namespaceIds
  untouched : ∀ n ∈ a.namespaceIds, n ∉ order →
    (∀ w, w ∈ b.usedNamespaces n ↔ w ∈ a.usedNamespaces n) ∧
      ∀ k, (b.declarations n).contains k = true ↔ (a.declarations n).contains k = true
  namespaces : ∀ n ∈ order, ∀ w, w ∈ b.usedNamespaces n ↔ w ≠ n ∧ a.Descends order 2 n w
  declarations : ∀ n ∈ order, ∀ k, (b.declarations n).contains k = true ↔
    ∃ w, a.Descends order 1 n w ∧ (a.declarations w).contains k = true

namespace Absorbed

variable {a b : Atlas} {order : List EntityId} {u : EntityId}

theorem congr {b' : Atlas} (h : Absorbed a b order) (hresembles : b'.Resembles b)
    (hdirectives : ∀ id, b'.directives id = b.directives id)
    (hdeclarations : ∀ id, b'.declarations id = b.declarations id) : Absorbed a b' order := by
  have hused (id : EntityId) : b'.usedNamespaces id = b.usedNamespaces id := by
    rw [usedNamespaces, usedNamespaces, hdirectives]
  refine ⟨hresembles.trans h.resembles, ⟨hresembles.isNumbered h.sound.isNumbered, ?_, ?_⟩, h.nodup,
    h.known, ?_, ?_, ?_⟩
  · simp only [hresembles.namespaceIds, hdirectives, hresembles.name]
    exact h.sound.named
  · simp only [hresembles.namespaceIds, hresembles.name]
    exact h.sound.distinct
  · simp only [hused, hdeclarations]
    exact h.untouched
  · simp only [hused]
    exact h.namespaces
  · simp only [hdeclarations]
    exact h.declarations

theorem mem_namespaceIds (h : Absorbed a b order) : b.namespaceIds = a.namespaceIds :=
  h.resembles.namespaceIds

theorem used_of_original (h : Absorbed a b order) (ha : a.HasSoundUsing) {v w : EntityId}
    (hv : v ∈ a.namespaceIds) (hw : w ∈ a.usedNamespaces v) : w ∈ b.usedNamespaces v := by
  by_cases horder : v ∈ order
  · refine (h.namespaces v horder w).mpr ⟨(ha.used hv hw).2, .last (.step hw (.refl 1 w))⟩
  · exact ((h.untouched v hv horder).1 w).mpr hw

theorem declared_of_original (h : Absorbed a b order) {k : String} (hv : v ∈ a.namespaceIds)
    (hk : (a.declarations v).contains k = true) : (b.declarations v).contains k = true := by
  by_cases horder : v ∈ order
  · exact (h.declarations v horder k).mpr ⟨v, .last (.refl 1 v), hk⟩
  · exact ((h.untouched v hv horder).2 k).mpr hk

variable (h : Absorbed a b order) (ha : a.HasSoundUsing) (hu : u ∈ a.namespaceIds)
  (hnew : u ∉ order)

include h ha hu hnew

theorem namespaces_absorbUsed (hnodup : (order ++ [u]).Nodup) (w : EntityId) :
    w ∈ (b.absorbUsed u).usedNamespaces u ↔ w ≠ u ∧ a.Descends (order ++ [u]) 2 u w := by
  have hub : u ∈ b.namespaceIds := h.mem_namespaceIds ▸ hu
  have hown := (h.untouched u hu hnew).1
  rw [h.sound.mem_usedNamespaces_absorbUsed hub hub]
  constructor
  · rintro (hw | ⟨-, hne, v, hv, hw⟩)
    · have hw' := (hown w).mp hw
      exact ⟨(ha.used hu hw').2, .last (.step hw' (.refl 1 w))⟩
    · have hv' := (hown v).mp hv
      refine ⟨hne, ?_⟩
      by_cases horder : v ∈ order
      · obtain ⟨-, hdescends⟩ := (h.namespaces v horder w).mp hw
        exact .down hv' ((precedes_snoc_iff hnew v).mpr horder)
          ((descends_append_iff hnodup horder).mpr hdescends)
      · have hw' := ((h.untouched v (ha.used hu hv').1 horder).1 w).mp hw
        exact .last (.step hv' (.step hw' (.refl 0 w)))
  · rintro ⟨hne, hdescends⟩
    cases hdescends with
    | last hsteps =>
      cases hsteps with
      | refl => exact absurd rfl hne
      | step hv hrest =>
        cases hrest with
        | refl => exact .inl ((hown w).mpr hv)
        | step hw hrest =>
          cases hrest with
          | refl =>
            exact .inr ⟨rfl, hne, _, (hown _).mpr hv, h.used_of_original ha (ha.used hu hv).1 hw⟩
    | @down _ v _ hv hprecedes hrest =>
      have horder := (precedes_snoc_iff hnew v).mp hprecedes
      by_cases hwv : w = v
      · exact .inl ((hown w).mpr (hwv ▸ hv))
      · refine .inr ⟨rfl, hne, v, (hown v).mpr hv, ?_⟩
        exact (h.namespaces v horder w).mpr ⟨hwv, (descends_append_iff hnodup horder).mp hrest⟩

theorem declarations_absorbUsed (hnodup : (order ++ [u]).Nodup) (k : String) :
    ((b.absorbUsed u).declarations u).contains k = true ↔
      ∃ w, a.Descends (order ++ [u]) 1 u w ∧ (a.declarations w).contains k = true := by
  have hub : u ∈ b.namespaceIds := h.mem_namespaceIds ▸ hu
  obtain ⟨hown, howndeclarations⟩ := h.untouched u hu hnew
  rw [h.sound.contains_declarations_absorbUsed hub hub]
  constructor
  · rintro (hk | ⟨-, v, hv, hk⟩)
    · exact ⟨u, .last (.refl 1 u), (howndeclarations k).mp hk⟩
    · have hv' := (hown v).mp hv
      by_cases horder : v ∈ order
      · obtain ⟨w, hdescends, hw⟩ := (h.declarations v horder k).mp hk
        exact ⟨w, .down hv' ((precedes_snoc_iff hnew v).mpr horder)
          ((descends_append_iff hnodup horder).mpr hdescends), hw⟩
      · exact ⟨v, .last (.step hv' (.refl 0 v)),
          ((h.untouched v (ha.used hu hv').1 horder).2 k).mp hk⟩
  · rintro ⟨w, hdescends, hk⟩
    cases hdescends with
    | last hsteps =>
      cases hsteps with
      | refl => exact .inl ((howndeclarations k).mpr hk)
      | step hv hrest =>
        cases hrest with
        | refl =>
          exact .inr ⟨rfl, w, (hown w).mpr hv, h.declared_of_original (ha.used hu hv).1 hk⟩
    | @down _ v _ hv hprecedes hrest =>
      have horder := (precedes_snoc_iff hnew v).mp hprecedes
      refine .inr ⟨rfl, v, (hown v).mpr hv, ?_⟩
      exact (h.declarations v horder k).mpr ⟨w, (descends_append_iff hnodup horder).mp hrest, hk⟩

/-- The step lemma: one more namespace of the order has absorbed. -/
theorem absorbUsed : Absorbed a (b.absorbUsed u) (order ++ [u]) := by
  have hub : u ∈ b.namespaceIds := h.mem_namespaceIds ▸ hu
  have hnodup : (order ++ [u]).Nodup := by
    rw [List.nodup_append]
    exact ⟨h.nodup, List.nodup_singleton u, fun x hx y hy => by
      rintro rfl
      exact hnew (List.mem_singleton.mp hy ▸ hx)⟩
  have hother {n : EntityId} (hn : n ∈ a.namespaceIds) (hne : n ≠ u) (w : EntityId) :
      w ∈ (b.absorbUsed u).usedNamespaces n ↔ w ∈ b.usedNamespaces n := by
    rw [h.sound.mem_usedNamespaces_absorbUsed hub (h.mem_namespaceIds ▸ hn)]
    simp [hne]
  have hotherdeclarations {n : EntityId} (hn : n ∈ a.namespaceIds) (hne : n ≠ u) (k : String) :
      ((b.absorbUsed u).declarations n).contains k = true ↔
        (b.declarations n).contains k = true := by
    rw [h.sound.contains_declarations_absorbUsed hub (h.mem_namespaceIds ▸ hn)]
    simp [hne]
  refine ⟨(b.resembles_absorbUsed u).trans h.resembles, h.sound.absorbUsed hub, hnodup,
    ?_, ?_, ?_, ?_⟩
  · intro n hn
    rcases List.mem_append.mp hn with hn | hn
    · exact h.known n hn
    · exact List.mem_singleton.mp hn ▸ hu
  · intro n hn horder
    rw [List.mem_append, List.mem_singleton, not_or] at horder
    obtain ⟨hused, hdeclared⟩ := h.untouched n hn horder.1
    exact ⟨fun w => (hother hn horder.2 w).trans (hused w),
      fun k => (hotherdeclarations hn horder.2 k).trans (hdeclared k)⟩
  · intro n hn w
    rcases List.mem_append.mp hn with hn | hn
    · rw [hother (h.known n hn) (fun heq => hnew (heq ▸ hn)), h.namespaces n hn,
        descends_append_iff hnodup hn]
    · obtain rfl := List.mem_singleton.mp hn
      exact h.namespaces_absorbUsed ha hu hnew hnodup w
  · intro n hn k
    rcases List.mem_append.mp hn with hn | hn
    · rw [hotherdeclarations (h.known n hn) (fun heq => hnew (heq ▸ hn)), h.declarations n hn]
      simp only [descends_append_iff hnodup hn]
    · obtain rfl := List.mem_singleton.mp hn
      exact h.declarations_absorbUsed ha hu hnew hnodup k

end Absorbed

/-! ## Closing namespaces -/

theorem mem_entityNumbers_of_isOpen {id : EntityId} (h : a.isOpen id = true) :
    id ∈ a.entityNumbers := by
  unfold isOpen namespace? at h
  cases he : a.entity? id with
  | none => simp [he] at h
  | some e => exact mem_entityNumbers_of_entity? he

section

variable (a : Atlas) (order : List EntityId) (n : EntityId)

theorem isOpen_markClosed (u n : EntityId) :
    (a.markClosed u).isOpen n = true ↔ a.isOpen n = true ∧ u.slot ≠ n.slot := by
  unfold isOpen markClosed
  rw [namespace?_modifyNamespace]
  split
  · next hslot => cases a.namespace? n <;> simp [hslot]
  · next hslot => simp [hslot]

theorem isOpen_foldl_markClosed :
    (order.foldl markClosed a).isOpen n = true ↔
      a.isOpen n = true ∧ ∀ u ∈ order, u.slot ≠ n.slot := by
  induction order generalizing a with
  | nil => simp
  | cons u order ih =>
    rw [List.foldl_cons, ih, isOpen_markClosed]
    simp only [List.forall_mem_cons, and_assoc]

theorem isOpen_absorbUsed (u n : EntityId) : (a.absorbUsed u).isOpen n = a.isOpen n := by
  unfold isOpen
  rw [absorbUsed, namespace?_modifyNamespace]
  split
  · cases a.namespace? n <;> rfl
  · rfl

theorem isOpen_foldl_absorbUsed : (order.foldl absorbUsed a).isOpen n = a.isOpen n := by
  induction order generalizing a with
  | nil => rfl
  | cons u order ih => rw [List.foldl_cons, ih, isOpen_absorbUsed]

end

theorem Absorbed.foldl_markClosed {b : Atlas} (h : Absorbed a b order) (marked : List EntityId) :
    Absorbed a (marked.foldl markClosed b) order := by
  induction marked generalizing b with
  | nil => exact h
  | cons u marked ih =>
    refine ih (h.congr (b.resembles_modifyNamespace u _) (fun id => ?_) fun id => ?_)
    · unfold directives
      rw [markClosed, namespace?_modifyNamespace]
      split
      · cases b.namespace? id <;> rfl
      · rfl
    · unfold Atlas.declarations
      rw [markClosed, namespace?_modifyNamespace]
      split
      · cases b.namespace? id <;> rfl
      · rfl

theorem Absorbed.foldl_absorbUsed {b : Atlas} (h : Absorbed a b order) (ha : a.HasSoundUsing)
    (hmore : ∀ u ∈ more, u ∈ a.namespaceIds) (hnodup : (order ++ more).Nodup) :
    Absorbed a (more.foldl Atlas.absorbUsed b) (order ++ more) := by
  induction more generalizing b order with
  | nil => simpa using h
  | cons u more ih =>
    have hnew : u ∉ order := fun hmem =>
      (List.nodup_middle.mp hnodup).notMem (List.mem_append_left _ hmem)
    rw [List.forall_mem_cons] at hmore
    rw [List.append_cons] at hnodup ⊢
    exact ih (h.absorbUsed ha hmore.1 hnew) hmore.2 hnodup

/-- What has become of `a` while its namespaces are being closed: those of `order` have absorbed and
are closed, and they used such as had absorbed before, or such as use them. -/
structure Closing (a b : Atlas) (order : List EntityId) : Prop extends Absorbed a b order where
  isOpen_iff : ∀ n ∈ a.namespaceIds, b.isOpen n = true ↔ n ∉ order
  back : ∀ n ∈ order, ∀ v ∈ a.usedNamespaces n, Precedes order v n ∨ a.Reaches v n

namespace Closing

variable {a b : Atlas} {order : List EntityId} {id : EntityId}

variable (h : Closing a b order)

include h

theorem reaches_of_used {v w : EntityId} (hv : v ∈ a.namespaceIds) (hw : w ∈ b.usedNamespaces v) :
    a.Reaches v w := by
  by_cases horder : v ∈ order
  · exact ((h.namespaces v horder w).mp hw).2.reaches
  · exact .single (((h.untouched v hv horder).1 w).mp hw)

theorem reaches_of_walk {v w : EntityId} (hv : v ∈ a.namespaceIds)
    (hwalk : Relation.ReflTransGen b.usingGraph.Edge v w) : a.Reaches v w := by
  induction hwalk using Relation.ReflTransGen.head_induction_on with
  | refl => exact .refl
  | head hedge _ ih =>
    have hnext := h.mem_namespaceIds ▸ h.sound.mem_namespaceIds_of_used hedge
    exact (h.reaches_of_used hv hedge).trans (ih hnext)

theorem usingOrder_spec (hid : id ∈ a.namespaceIds) (hopen : b.isOpen id = true) :
    (∀ u ∈ b.usingOrder id, u ∈ a.namespaceIds) ∧ (order ++ b.usingOrder id).Nodup ∧
      id ∈ b.usingOrder id := by
  obtain ⟨hstart, hadmitted, hkeys⟩ :=
    b.usingGraph.finished_steps { key := EntityId.slot, admits := b.isOpen } id
  have hknown : ∀ u ∈ b.usingOrder id, u ∈ a.namespaceIds :=
    b.usingGraph.finished_kind _
      (fun _ _ hedge => h.mem_namespaceIds ▸ h.sound.mem_namespaceIds_of_used hedge) hid
  refine ⟨hknown, List.nodup_append.mpr ⟨h.nodup, hkeys.of_map _, ?_⟩, hstart⟩
  rintro x hx _ hu rfl
  have hopen' : b.isOpen x = true := by
    rcases hadmitted x hu with rfl | ⟨-, hadmits⟩
    · exact hopen
    · exact hadmits
  exact (h.isOpen_iff x (h.known x hx)).mp hopen' hx

/-- Closing an open namespace closes those of its order, and no others. -/
theorem closeFrom (ha : a.HasSoundUsing) (hid : id ∈ a.namespaceIds) (hopen : b.isOpen id = true) :
    Closing a (b.closeFrom id) (order ++ b.usingOrder id) := by
  obtain ⟨hknown, hnodup, -⟩ := h.usingOrder_spec hid hopen
  have habsorbed := (h.toAbsorbed.foldl_markClosed (b.usingOrder id)).foldl_absorbUsed ha hknown
    hnodup
  rw [Atlas.closeFrom, if_pos hopen]
  refine ⟨habsorbed, fun n hn => ?_, fun n hn v hv => ?_⟩
  · rw [isOpen_foldl_absorbUsed, isOpen_foldl_markClosed, h.isOpen_iff n hn, List.mem_append,
      not_or]
    refine and_congr_right fun _ => ⟨fun hslots hmem => hslots n hmem rfl,
      fun hmem u hu hslot => ?_⟩
    exact hmem (ha.isNumbered.eq_of_slot (hknown u hu) hn hslot ▸ hu)
  · rcases List.mem_append.mp hn with hn | hn
    · rcases h.back n hn v hv with hprecedes | hreaches
      · exact .inl (hprecedes.append _)
      · exact .inr hreaches
    · obtain ⟨before, after, heq⟩ := List.append_of_mem hn
      have hnid := hknown n hn
      have hvid := (ha.used hnid hv).1
      have hprecedes (hbefore : v ∈ order ++ before) : Precedes (order ++ b.usingOrder id) v n :=
        ⟨order ++ before, after, by rw [heq, List.append_assoc], hbefore⟩
      by_cases hvorder : v ∈ order
      · exact .inl (hprecedes (List.mem_append_left _ hvorder))
      · have hedge : b.usingGraph.Edge n v := h.used_of_original ha hnid hv
        have hapart : b.usingGraph.KeysApart { key := EntityId.slot, admits := b.isOpen }
            (· ∈ a.namespaceIds) :=
          ⟨fun _ _ hedge => h.mem_namespaceIds ▸ h.sound.mem_namespaceIds_of_used hedge,
            fun _ _ hx hy => ha.isNumbered.eq_of_slot hx hy⟩
        have hvopen := (h.isOpen_iff v hvid).mpr hvorder
        rcases b.usingGraph.mem_before_or_back _ hapart (.inl rfl) hid heq hedge
          (mem_entityNumbers_of_isOpen hvopen) hvopen with hbefore | ⟨-, hback⟩
        · exact .inl (hprecedes (List.mem_append_right _ hbefore))
        · exact .inr (h.reaches_of_walk hvid (.mono (fun _ _ hentry => hentry.1) _ _ hback))

end Closing

/-- Closes a namespace, and lists the namespaces that absorb then behind those before. -/
def closeListing (state : Atlas × List EntityId) (id : EntityId) : Atlas × List EntityId :=
  (state.1.closeFrom id, if state.1.isOpen id then state.2 ++ state.1.usingOrder id else state.2)

/-- The order in which the namespaces absorb when all of them are closed. -/
def closingOrder (a : Atlas) : List EntityId :=
  (a.namespaceIds.foldl closeListing (a, [])).2

theorem fst_foldl_closeListing (ids : List EntityId) (state : Atlas × List EntityId) :
    (ids.foldl closeListing state).1 = ids.foldl Atlas.closeFrom state.1 := by
  induction ids generalizing state with
  | nil => rfl
  | cons id ids ih => exact ih _

theorem Closing.foldl_closeListing (ha : a.HasSoundUsing) {ids : List EntityId}
    (hids : ∀ n ∈ ids, n ∈ a.namespaceIds) (state : Atlas × List EntityId)
    (h : Closing a state.1 state.2) :
    Closing a (ids.foldl closeListing state).1 (ids.foldl closeListing state).2 ∧
      state.2 ⊆ (ids.foldl closeListing state).2 ∧ ids ⊆ (ids.foldl closeListing state).2 := by
  induction ids generalizing state with
  | nil => exact ⟨h, List.Subset.refl _, List.nil_subset _⟩
  | cons id ids ih =>
    rw [List.forall_mem_cons] at hids
    -- Either the namespace is closed now or it is listed already.
    have hstep : Closing a (closeListing state id).1 (closeListing state id).2 ∧
        state.2 ⊆ (closeListing state id).2 ∧ id ∈ (closeListing state id).2 := by
      unfold closeListing
      by_cases hopen : state.1.isOpen id = true
      · rw [if_pos hopen]
        exact ⟨h.closeFrom ha hids.1 hopen, List.subset_append_left _ _,
          List.mem_append_right _ (h.usingOrder_spec hids.1 hopen).2.2⟩
      · have hmem : id ∈ state.2 := by
          by_contra hnot
          exact hopen ((h.isOpen_iff id hids.1).mpr hnot)
        rw [if_neg hopen, Atlas.closeFrom, if_neg hopen]
        exact ⟨h, List.Subset.refl _, hmem⟩
    obtain ⟨hclosing, hsubset, hall⟩ := ih hids.2 _ hstep.1
    exact ⟨hclosing, fun n hn => hsubset (hstep.2.1 hn),
      List.cons_subset.mpr ⟨hsubset hstep.2.2, hall⟩⟩

theorem closing_nil (ha : a.HasSoundUsing) (hopen : ∀ n ∈ a.namespaceIds, a.isOpen n = true) :
    Closing a a [] where
  resembles := .refl a
  sound := ha
  nodup := List.nodup_nil
  known := by simp
  untouched _ _ _ := ⟨fun _ => .rfl, fun _ => .rfl⟩
  namespaces := by simp
  declarations := by simp
  isOpen_iff n hn := by simp [hopen n hn]
  back := by simp

theorem closing_closeAllUsing (ha : a.HasSoundUsing)
    (hopen : ∀ n ∈ a.namespaceIds, a.isOpen n = true) :
    Closing a a.closeAllUsing a.closingOrder ∧ a.namespaceIds ⊆ a.closingOrder := by
  obtain ⟨hclosing, -, hall⟩ := Closing.foldl_closeListing ha (fun _ hn => hn) (a, [])
    (closing_nil ha hopen)
  rw [fst_foldl_closeListing] at hclosing
  exact ⟨hclosing, hall⟩

/-! ## What can be reached -/

theorem Closing.descends {b : Atlas} (h : Closing a b order) (hall : a.namespaceIds ⊆ order)
    (ha : a.HasSoundUsing) (slack : Nat) (hn : n ∈ a.namespaceIds)
    (hacyclic : ∀ m, a.Reaches n m → ∀ v ∈ a.usedNamespaces m, ¬ a.Reaches v m)
    (hreaches : a.Reaches n w) : a.Descends order slack n w := by
  induction hreaches using Relation.ReflTransGen.head_induction_on with
  | refl => exact .last (.refl slack w)
  | @head n v hv _ ih =>
    have hrest := ih (ha.used hn hv).1 fun m hm => hacyclic m (.head hv hm)
    rcases h.back n (hall hn) v hv with hprecedes | hback
    · exact .down hv hprecedes hrest
    · exact absurd hback (hacyclic n .refl v hv)

/-- A namespace of `b` uses exactly the other ones that it can reach in `a`. -/
def UsesReachable (a b : Atlas) (n : EntityId) : Prop :=
  ∀ w, w ∈ b.usedNamespaces n ↔ w ≠ n ∧ a.Reaches n w

/-- A namespace of `b` uses exactly the declarations that it and those it can reach use in `a`. -/
def DeclaresReachable (a b : Atlas) (n : EntityId) : Prop :=
  ∀ k, k ∈ (b.usedDeclarations n).map (·.1) ↔
    ∃ w, a.Reaches n w ∧ k ∈ (a.usedDeclarations w).map (·.1)

theorem mem_map_usedDeclarations_iff (a : Atlas) (n : EntityId) (k : String) :
    k ∈ (a.usedDeclarations n).map (·.1) ↔ (a.declarations n).contains k = true := by
  rw [usedDeclarations]
  show k ∈ (a.declarations n).keys ↔ _
  rw [Dict.mem_keys_iff]
  exact Option.isSome_iff_exists.symm

section

variable {a b : Atlas} {order : List EntityId} {n : EntityId}

theorem usesReachable_iff
    (h : ∀ w, w ∈ b.usedNamespaces n ↔ w ≠ n ∧ a.Descends order 2 n w) :
    a.UsesReachable b n ↔ ∀ w, w ≠ n → a.Reaches n w → a.Descends order 2 n w := by
  constructor
  · intro huses w hne hreaches
    exact ((h w).mp ((huses w).mpr ⟨hne, hreaches⟩)).2
  · intro hall w
    rw [h w]
    exact and_congr_right fun hne => ⟨Descends.reaches, hall w hne⟩

theorem declaresReachable_iff
    (h : ∀ k, k ∈ (b.usedDeclarations n).map (·.1) ↔
      ∃ w, a.Descends order 1 n w ∧ k ∈ (a.usedDeclarations w).map (·.1)) :
    a.DeclaresReachable b n ↔
      ∀ w, a.Reaches n w → ∀ k ∈ (a.usedDeclarations w).map (·.1),
        ∃ w', a.Descends order 1 n w' ∧ k ∈ (a.usedDeclarations w').map (·.1) := by
  constructor
  · intro hdeclares w hreaches k hk
    exact (h k).mp ((hdeclares k).mpr ⟨w, hreaches, hk⟩)
  · intro hall k
    rw [h k]
    constructor
    · rintro ⟨w, hdescends, hk⟩
      exact ⟨w, hdescends.reaches, hk⟩
    · rintro ⟨w, hreaches, hk⟩
      exact hall w hreaches k hk

end

/-- What a namespace uses after all are closed: what walks lead to that go down in the order of
closing until at most two directives are left, and the declarations to which walks lead that go down
until at most one is left. That is what the namespace can reach if and only if such walks lead
there, as they do where it can reach no cycle. -/
theorem used_after_closeAllUsing (a : Atlas) (ha : a.HasSoundUsing)
    (hopen : ∀ n ∈ a.namespaceIds, a.isOpen n = true) {n : EntityId} (hn : n ∈ a.namespaceIds) :
    let b := a.closeAllUsing
    (∀ w, w ∈ b.usedNamespaces n ↔ w ≠ n ∧ a.Descends a.closingOrder 2 n w) ∧
    (∀ k, k ∈ (b.usedDeclarations n).map (·.1) ↔
      ∃ w, a.Descends a.closingOrder 1 n w ∧ k ∈ (a.usedDeclarations w).map (·.1)) ∧
    (a.UsesReachable b n ↔
      ∀ w, w ≠ n → a.Reaches n w → a.Descends a.closingOrder 2 n w) ∧
    (a.DeclaresReachable b n ↔
      ∀ w, a.Reaches n w → ∀ k ∈ (a.usedDeclarations w).map (·.1),
        ∃ w', a.Descends a.closingOrder 1 n w' ∧ k ∈ (a.usedDeclarations w').map (·.1)) ∧
    ((∀ m, a.Reaches n m → ∀ v ∈ a.usedNamespaces m, ¬ a.Reaches v m) →
      a.UsesReachable b n ∧ a.DeclaresReachable b n) := by
  obtain ⟨hclosing, hall⟩ := closing_closeAllUsing ha hopen
  have hnamespaces := hclosing.namespaces n (hall hn)
  have hdeclarations (k : String) : k ∈ (a.closeAllUsing.usedDeclarations n).map (·.1) ↔
      ∃ w, a.Descends a.closingOrder 1 n w ∧ k ∈ (a.usedDeclarations w).map (·.1) := by
    simp only [mem_map_usedDeclarations_iff]
    exact hclosing.declarations n (hall hn) k
  have huses := usesReachable_iff hnamespaces
  have hdeclares := declaresReachable_iff hdeclarations
  refine ⟨hnamespaces, hdeclarations, huses, hdeclares, fun hacyclic => ?_⟩
  refine ⟨huses.mpr ?_, hdeclares.mpr ?_⟩
  · exact fun w _ hreaches => hclosing.descends hall ha 2 hn hacyclic hreaches
  · exact fun w hreaches k hk => ⟨w, hclosing.descends hall ha 1 hn hacyclic hreaches, hk⟩

/-- Four namespaces, each of which uses the next one, and the last one the first. -/
def ring : Atlas :=
  let declare (a : Atlas) (name : String) := (a.register name .namespaceKind {}).1
  let letUse (a : Atlas) (edge : Nat × Nat) := (a.useNamespace ⟨edge.1⟩ ⟨edge.2⟩).toOption.getD a
  [(1, 2), (2, 3), (3, 4), (4, 1)].foldl letUse (["a", "b", "c", "d"].foldl declare (empty {}))

theorem hasSoundUsing_ring : ring.HasSoundUsing :=
  ⟨by decide +kernel, by decide +kernel, by decide +kernel⟩

/-- From the last namespace a walk down the order leads two directives on, but not three. -/
theorem used_after_closeAllUsing_ring :
    ring.HasSoundUsing ∧ (∀ n ∈ ring.namespaceIds, ring.isOpen n = true) ∧
      ring.Descends ring.closingOrder 2 ⟨4⟩ ⟨2⟩ ∧ ¬ ring.Descends ring.closingOrder 2 ⟨4⟩ ⟨3⟩ := by
  have hopen : ∀ n ∈ ring.namespaceIds, ring.isOpen n = true := by decide +kernel
  have hlast : ⟨4⟩ ∈ ring.namespaceIds := by decide +kernel
  obtain ⟨hused, -⟩ := used_after_closeAllUsing ring hasSoundUsing_ring hopen hlast
  have hsecond : ⟨2⟩ ∈ ring.closeAllUsing.usedNamespaces ⟨4⟩ := by decide +kernel
  have hthird : ⟨3⟩ ∉ ring.closeAllUsing.usedNamespaces ⟨4⟩ := by decide +kernel
  refine ⟨hasSoundUsing_ring, hopen, ((hused ⟨2⟩).mp hsecond).2, fun hdescends => ?_⟩
  exact hthird ((hused ⟨3⟩).mpr ⟨by decide, hdescends⟩)

/-- The last namespace absorbs first, and then the first one uses the second one alone; what the
second one uses does not come to it any more. -/
theorem unused_after_closeAllUsing_ring :
    ring.HasSoundUsing ∧ (∀ n ∈ ring.namespaceIds, ring.isOpen n = true) ∧
      ring.Reaches ⟨4⟩ ⟨3⟩ ∧ ⟨3⟩ ∉ ring.closeAllUsing.usedNamespaces ⟨4⟩ := by
  refine ⟨hasSoundUsing_ring, by decide +kernel, ?_, by decide +kernel⟩
  have h41 : ⟨1⟩ ∈ ring.usedNamespaces ⟨4⟩ := by decide +kernel
  have h12 : ⟨2⟩ ∈ ring.usedNamespaces ⟨1⟩ := by decide +kernel
  have h23 : ⟨3⟩ ∈ ring.usedNamespaces ⟨2⟩ := by decide +kernel
  exact .head h41 (.head h12 (.single h23))

end SymbolAtlas.Atlas
