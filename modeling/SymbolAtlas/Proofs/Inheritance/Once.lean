import Mathlib.Data.List.Nodup
import SymbolAtlas.Proofs.Inheritance.Recursion

/-!
# Merging once

Every walk of a merge lists classes that are not merged yet, and none of them twice; what one walk
lists is merged before the next one starts. Together the walks list every unmerged class once, cycles
and bounds or not, and when they are done there is nothing left to merge.
-/

set_option autoImplicit false

namespace SymbolAtlas.Atlas

variable {id start : EntityId} {log : List EntityId}

variable {a : Atlas}

/-- No base edge leads to the number zero, which is never given out. -/
def AvoidsZero (a : Atlas) : Prop :=
  ∀ e ∈ a.entities, (e.class?.all fun c => c.bases.all fun edge => edge.target.number != 0) = true

instance (a : Atlas) : Decidable a.AvoidsZero :=
  inferInstanceAs (Decidable (∀ e ∈ a.entities,
    (e.class?.all fun c => c.bases.all fun edge => edge.target.number != 0) = true))

theorem AvoidsZero.number_ne (h : a.AvoidsZero) {edge : BaseEdge} (hedge : edge ∈ a.bases id) :
    edge.target.number ≠ 0 := by
  unfold bases at hedge
  cases hclass : a.class? id with
  | none => simp [hclass] at hedge
  | some c =>
    obtain ⟨e, he, hbody⟩ := (a.class?_eq_some_iff id c).mp hclass
    have hall := h e (Array.mem_of_getElem? he)
    rw [hclass, Option.map_some] at hedge
    rw [hbody, Option.all_some, List.all_eq_true] at hall
    simpa using hall edge hedge

/-! ## One walk -/

theorem isUnmerged_of_mem_mergeOrder (h : id ∈ (a.mergeOrder start).value) :
    a.isUnmerged id = true := by
  unfold mergeOrder at h
  split at h
  · next hstart =>
    rcases ((a.baseGraph true).finished_steps _ start).2.1 id h with rfl | ⟨-, hadmits⟩
    · exact hstart
    · exact hadmits
  · simp at h

theorem nodup_mergeOrder (a : Atlas) (start : EntityId) : (a.mergeOrder start).value.Nodup := by
  unfold mergeOrder
  split
  · simpa [mergeRule] using ((a.baseGraph true).finished_steps a.mergeRule start).2.2
  · exact List.nodup_nil

theorem number_ne_of_mem_mergeOrder (hzero : a.AvoidsZero) (hstart : start.number ≠ 0)
    (h : id ∈ (a.mergeOrder start).value) : id.number ≠ 0 := by
  unfold mergeOrder at h
  split at h
  · have htarget : ∀ x y, (a.baseGraph true).Edge x y → y.number ≠ 0 := by
      intro x y hxy
      obtain ⟨edge, hedge, rfl⟩ := (a.baseGraph_edge_iff x y).mp hxy
      exact hzero.number_ne hedge
    exact (a.baseGraph true).finished_kind _ htarget hstart id h
  · simp at h

theorem Resembles.avoidsZero {b : Atlas} (h : a.Resembles b) (hb : b.AvoidsZero) :
    a.AvoidsZero := by
  intro e he
  obtain ⟨slot, hslot, rfl⟩ := Array.mem_iff_getElem.mp he
  cases hclass : a.entities[slot].class? with
  | none => rfl
  | some c =>
    rw [Option.all_some, List.all_eq_true]
    intro edge hedge
    have hbases : a.bases (.ofSlot slot) = c.bases := by
      have hentity : a.entity? (.ofSlot slot) = some a.entities[slot] :=
        Array.getElem?_eq_getElem hslot
      simp [Atlas.bases, Atlas.class?, hentity, hclass]
    rw [← hbases, h.bases] at hedge
    simpa using hb.number_ne hedge

/-! ## All walks -/

/-- Where merging all classes stands after the classes of `log`, in their order: `b` is what merging
them one by one makes of `a`, and all of them were unmerged. -/
structure Merging (a : Atlas) (b : Atlas) (log : List EntityId) : Prop where
  atlas : b = a.mergeInOrder log
  nodup : log.Nodup
  isUnmerged : ∀ id ∈ log, a.isUnmerged id = true

/-- The step lemma: the classes of an order are merged for the first time. -/
theorem Merging.mergeFrom {a b : Atlas} (h : Merging a b log) (start : EntityId) :
    Merging a (b.mergeFrom start).value.1 (log ++ (b.mergeOrder start).value) := by
  have hunmerged : ∀ id ∈ (b.mergeOrder start).value,
      a.isUnmerged id = true ∧ ∀ u ∈ log, u.slot ≠ id.slot := by
    intro id hid
    have hid' := isUnmerged_of_mem_mergeOrder hid
    rw [h.atlas, isUnmerged_mergeInOrder] at hid'
    exact hid'
  refine ⟨?_, ?_, ?_⟩
  · rw [value_mergeFrom]
    unfold mergeInOrder
    rw [List.foldl_append, h.atlas]
    rfl
  · -- What has been merged is not listed again, since a walk enters unmerged classes alone.
    refine h.nodup.append (b.nodup_mergeOrder start) ?_
    intro id hlog horder
    exact (hunmerged id horder).2 id hlog rfl
  · intro id hid
    rcases List.mem_append.mp hid with hid | hid
    · exact h.isUnmerged id hid
    · exact (hunmerged id hid).1

/-- One start after the other, with the number of classes merged so far. -/
def mergeCounting (state : Atlas × Nat) (start : EntityId) : Atlas × Nat :=
  ((state.1.mergeFrom start).value.1, state.2 + (state.1.mergeFrom start).value.2)

theorem mergeFrom_count (a : Atlas) (start : EntityId) :
    (a.mergeFrom start).value.2 = (a.mergeOrder start).value.length := by
  rfl

theorem Merging.foldl_mergeCounting (hzero : a.AvoidsZero) {starts : List EntityId}
    (hstarts : ∀ start ∈ starts, start.number ≠ 0) {state : Atlas × Nat} (h : Merging a state.1 log)
    (hcount : state.2 = log.length) (hlog : ∀ id ∈ log, id.number ≠ 0) :
    ∃ log', Merging a (starts.foldl mergeCounting state).1 log' ∧
      (starts.foldl mergeCounting state).2 = log'.length ∧ ∀ id ∈ log', id.number ≠ 0 := by
  induction starts generalizing state log with
  | nil => exact ⟨log, h, hcount, hlog⟩
  | cons start starts ih =>
    rw [List.forall_mem_cons] at hstarts
    have hresembles : state.1.Resembles a := by
      rw [h.atlas]
      exact a.resembles_mergeInOrder log
    refine ih hstarts.2 (h.mergeFrom start) ?_ ?_
    · show state.2 + (state.1.mergeFrom start).value.2 = _
      rw [mergeFrom_count, hcount, List.length_append]
    · intro id hid
      rcases List.mem_append.mp hid with hid | hid
      · exact hlog id hid
      · exact number_ne_of_mem_mergeOrder (hresembles.avoidsZero hzero) hstarts.1 hid

theorem mergeAll_eq_foldl (a : Atlas) :
    a.mergeAll.value.1 = (a.classIds.foldl mergeCounting (a, 0)).1 ∧
      a.mergeAll.value.2.classesMerged = (a.classIds.foldl mergeCounting (a, 0)).2 := by
  unfold mergeAll
  rw [Noted.value_bind, Noted.value_foldlM]
  exact ⟨rfl, rfl⟩

theorem IsNumbered.mem_classIds_iff (h : a.IsNumbered) (id : EntityId) :
    id ∈ a.classIds ↔ id.number ≠ 0 ∧ (a.class? id).isSome = true := by
  unfold classIds
  simp only [List.mem_map, List.mem_filter, Array.mem_toList_iff]
  constructor
  · rintro ⟨e, ⟨he, hclass⟩, rfl⟩
    obtain ⟨slot, hslot, rfl⟩ := Array.mem_iff_getElem.mp he
    have hentity : a.entity? (.ofSlot slot) = some a.entities[slot] :=
      Array.getElem?_eq_getElem hslot
    rw [h slot hslot]
    refine ⟨by simp [EntityId.ofSlot], ?_⟩
    simpa [class?, hentity, Entity.isClass] using hclass
  · rintro ⟨hnumber, hclass⟩
    obtain ⟨c, hc⟩ := Option.isSome_iff_exists.mp hclass
    obtain ⟨e, he, hbody⟩ := (a.class?_eq_some_iff id c).mp hc
    refine ⟨e, ⟨Array.mem_of_getElem? he, by simp [Entity.isClass, hbody]⟩, ?_⟩
    rw [h.id_eq he]
    exact EntityId.eq_of_slot (Nat.succ_pos _) (Nat.pos_of_ne_zero hnumber) rfl

theorem IsNumbered.nodup_classIds (h : a.IsNumbered) : a.classIds.Nodup := by
  have hids : a.entities.toList.map (·.id) = (List.range a.entities.size).map EntityId.ofSlot := by
    apply List.ext_getElem
    · simp
    · intro slot hslot hslot'
      rw [List.getElem_map, List.getElem_map, List.getElem_range]
      exact h slot (by simpa using hslot)
  have hnodup : (a.entities.toList.map (·.id)).Nodup := by
    rw [hids]
    refine List.nodup_range.map fun x y hxy => ?_
    simpa [EntityId.ofSlot] using hxy
  exact hnodup.sublist (List.filter_sublist.map _)

/-! ## Nothing is left -/

theorem mergeFrom_of_isUnmerged_eq_false (h : a.isUnmerged start = false) :
    a.mergeFrom start = pure (a, 0) := by
  have horder : a.mergeOrder start = pure [] := by
    unfold mergeOrder
    rw [h]
    rfl
  unfold mergeFrom
  rw [horder]
  rfl

theorem mergeAll_of_isUnmerged_eq_false (h : ∀ id, a.isUnmerged id = false) :
    a.mergeAll = pure (a, {
      classesMerged := 0
      inheritedEntries := a.allViews.countP (·.isInherited)
      ambiguousEntries := a.allViews.countP (·.isAmbiguous) }) := by
  have hloop (starts : List EntityId) :
      starts.foldlM (fun (state : Atlas × Nat) id => do
        let merged ← state.1.mergeFrom id
        return (merged.1, state.2 + merged.2)) (a, 0) = (pure (a, 0) : Noted (Atlas × Nat)) := by
    induction starts with
    | nil => rfl
    | cons start starts ih =>
      show (a.mergeFrom start >>= fun merged => pure (merged.1, 0 + merged.2)) >>= _ = _
      rw [mergeFrom_of_isUnmerged_eq_false (h start)]
      exact ih
  show (a.classIds.foldlM _ (a, 0) >>= _ : Noted (Atlas × MergeCount)) = _
  rw [hloop a.classIds, pure_bind]

theorem exists_merge_order (hnumbered : a.IsNumbered) (hzero : a.AvoidsZero) :
    ∃ order : List EntityId, order.Perm (a.classIds.filter a.isUnmerged) ∧
      a.mergeAll.value.1 = a.mergeInOrder order ∧
      a.mergeAll.value.2.classesMerged = order.length := by
  have hstarts : ∀ start ∈ a.classIds, start.number ≠ 0 :=
    fun start hstart => ((hnumbered.mem_classIds_iff start).mp hstart).1
  have hbegin : Merging a (a, 0).1 [] := ⟨rfl, List.nodup_nil, by simp⟩
  obtain ⟨log, hlog, hcount, hnumbers⟩ := hbegin.foldl_mergeCounting hzero hstarts rfl (by simp)
  rw [← a.mergeAll_eq_foldl.1] at hlog
  rw [← a.mergeAll_eq_foldl.2] at hcount
  refine ⟨log, ?_, hlog.atlas, hcount⟩
  rw [List.perm_ext_iff_of_nodup hlog.nodup (hnumbered.nodup_classIds.filter _)]
  intro id
  rw [List.mem_filter, hnumbered.mem_classIds_iff]
  constructor
  · intro hid
    have hunmerged := hlog.isUnmerged id hid
    obtain ⟨e, c, he, hbody, -⟩ := class?_of_isUnmerged hunmerged
    have hclass : a.class? id = some c := (a.class?_eq_some_iff id c).mpr ⟨e, he, hbody⟩
    exact ⟨⟨hnumbers id hid, by simp [hclass]⟩, hunmerged⟩
  · rintro ⟨⟨hnumber, -⟩, hunmerged⟩
    -- A class that no walk lists would still be unmerged.
    by_contra hid
    have hleft : a.mergeAll.value.1.isUnmerged id = true := by
      rw [hlog.atlas, isUnmerged_mergeInOrder]
      refine ⟨hunmerged, fun u hu hslot => hid ?_⟩
      rwa [← EntityId.eq_of_slot (Nat.pos_of_ne_zero (hnumbers u hu)) (Nat.pos_of_ne_zero hnumber)
        hslot]
    have hnone : a.mergeAll.value.1.isUnmerged id = false :=
      isUnmerged_mergeAll_mergeEach hnumbered [] id
    rw [hnone] at hleft
    cases hleft

/-- Merging all classes, whatever the hierarchy looks like, leaves every class merged. After that
there is nothing to merge: merging all classes again, or any of them, changes nothing and gives no
notice. Each class that was unmerged is merged exactly once, and the count says how many these
are. -/
theorem mergeAll_merges_once (a : Atlas) (hnumbered : a.IsNumbered) :
    let b := a.mergeAll.value.1
    let count := a.mergeAll.value.2
    (∀ id c, b.class? id = some c → c.isMerged = true) ∧
    b.mergeAll = pure (b, { count with classesMerged := 0 }) ∧
    (∀ id, (b.class? id).isSome = true → b.mergeMembers id = .ok (pure b)) ∧
    (a.AvoidsZero →
      count.classesMerged = (a.classIds.filter a.isUnmerged).length ∧
      ∃ order : List EntityId, order.Perm (a.classIds.filter a.isUnmerged) ∧
        b = a.mergeInOrder order) := by
  intro b count
  have hmerged : ∀ id, b.isUnmerged id = false :=
    isUnmerged_mergeAll_mergeEach hnumbered []
  refine ⟨?_, ?_, ?_, ?_⟩
  · intro id c hc
    have hid := hmerged id
    unfold isUnmerged at hid
    simpa [hc] using hid
  · rw [mergeAll_of_isUnmerged_eq_false hmerged]
    rfl
  · intro id hclass
    obtain ⟨c, hc⟩ := Option.isSome_iff_exists.mp hclass
    obtain ⟨e, he, hbody⟩ := (b.class?_eq_some_iff id c).mp hc
    unfold mergeMembers requireClass
    rw [he]
    simp only [hbody]
    rw [mergeFrom_of_isUnmerged_eq_false (hmerged id)]
    rfl
  · intro hzero
    obtain ⟨order, hperm, hatlas, hcount⟩ := exists_merge_order hnumbered hzero
    exact ⟨hcount.trans hperm.length_eq, order, hperm, hatlas⟩

/-- Three classes in a circle and one derived from the first of them, under a bound that cuts walks
short. One of the classes is merged already, and with it the only base that the bound lets it
reach. -/
def encircled : Atlas :=
  let a := ((empty { maxInheritanceDepth := 1 }).naming "A").naming "B"
  let a := (a.naming "C").naming "D"
  let a := (a.declaring ⟨1⟩ "f" "(int x)").declaring ⟨2⟩ "f" "()"
  let a := (a.linkBase ⟨1⟩ { target := ⟨2⟩ }).value
  let a := (a.linkBase ⟨2⟩ { target := ⟨3⟩ }).value
  let a := (a.linkBase ⟨3⟩ { target := ⟨1⟩ }).value
  (a.linkBase ⟨4⟩ { target := ⟨1⟩ }).value.mergeEach [⟨3⟩]

theorem mergeAll_merges_once_encircled :
    encircled.IsNumbered ∧ encircled.AvoidsZero ∧
      encircled.mergeAll.value.2.classesMerged = 2 ∧
      ∃ b : Atlas, b = encircled.mergeAll.value.1 ∧ b ≠ encircled ∧
        b.mergeAll.value.1 = b ∧ b.mergeAll.value.2.classesMerged = 0 ∧
        b.mergeMembers ⟨4⟩ = .ok (pure b) := by
  have hnumbered : encircled.IsNumbered := by decide +kernel
  have hzero : encircled.AvoidsZero := by decide +kernel
  obtain ⟨-, hagain, heach, honce⟩ := mergeAll_merges_once encircled hnumbered
  have hunmerged : (encircled.classIds.filter encircled.isUnmerged).length = 2 := by
    decide +kernel
  refine ⟨hnumbered, hzero, (honce hzero).1.trans hunmerged, _, rfl, by decide +kernel, ?_, ?_, ?_⟩
  · rw [hagain]
    rfl
  · rw [hagain]
    rfl
  · exact heach ⟨4⟩ (by decide +kernel)

end SymbolAtlas.Atlas
