import SymbolAtlas.Proofs.Graph.Discovery
import SymbolAtlas.Proofs.Inheritance.Exactness
import SymbolAtlas.Proofs.Inheritance.Once

/-!
# The order of a merge

Before a class is merged, the classes that it is derived from are put into an order. The order is that
in which a depth-first walk leaves them: the class itself comes last, and every other one comes before
the classes derived from it, unless there is a way back. Only edges on cycles can be out of order.
-/

set_option autoImplicit false

namespace SymbolAtlas.Atlas

open SymbolAtlas.Graph

variable {a : Atlas} {start u v : EntityId} {before after : List EntityId}

/-- A base edge between classes whose bases have not been taken over. -/
def StepsUnmerged (a : Atlas) (x y : EntityId) : Prop :=
  a.isUnmerged x = true ∧ a.StepsUp true x y ∧ a.isUnmerged y = true

theorem value_mergeOrder (h : a.isUnmerged start = true) :
    (a.mergeOrder start).value = finished ((a.baseGraph true).steps a.mergeRule start) := by
  unfold mergeOrder
  rw [if_pos h]

theorem mem_nodes_of_isUnmerged (h : a.isUnmerged v = true) : v ∈ (a.baseGraph true).nodes := by
  obtain ⟨e, -, he, -⟩ := class?_of_isUnmerged h
  exact mem_nodes_spanning (mem_entityNumbers_of_entity? he) _

theorem entry_mergeRule_iff :
    (a.baseGraph true).Entry a.mergeRule u v ↔ a.StepsUp true u v ∧ a.isUnmerged v = true := by
  rw [Entry, edge_baseGraph]
  rfl

theorem reflTransGen_stepsUnmerged (hv : a.isUnmerged v = true)
    (h : Relation.ReflTransGen ((a.baseGraph true).Entry a.mergeRule) v u) :
    a.isUnmerged u = true ∧ Relation.ReflTransGen a.StepsUnmerged v u := by
  induction h with
  | refl => exact ⟨hv, .refl⟩
  | tail _ hentry ih =>
    obtain ⟨hstep, hunmerged⟩ := entry_mergeRule_iff.mp hentry
    exact ⟨hunmerged, ih.2.tail ⟨ih.1, hstep, hunmerged⟩⟩

theorem exists_stepsUnmerged_of_ne (heq : (a.mergeOrder start).value = before ++ v :: after)
    (hne : v ≠ start) : ∃ u ∈ after, a.StepsUnmerged u v := by
  have hunmerged : ∀ id ∈ before ++ v :: after, a.isUnmerged id = true := by
    rw [← heq]
    exact fun id => isUnmerged_of_mem_mergeOrder
  have hstart : a.isUnmerged start = true := by
    by_contra hnot
    rw [mergeOrder, if_neg hnot] at heq
    exact absurd heq (by simp)
  rw [value_mergeOrder hstart] at heq
  obtain ⟨u, hu, hedge⟩ := (a.baseGraph true).exists_later_source_of_ne a.mergeRule heq hne
  rw [edge_baseGraph] at hedge
  exact ⟨u, hu, hunmerged u (by simp [hu]), hedge, hunmerged v (by simp)⟩

theorem getLast?_mergeOrder (h : a.isUnmerged start = true) :
    (a.mergeOrder start).value.getLast? = some start := by
  rcases List.eq_nil_or_concat (a.mergeOrder start).value with hnil | ⟨before, v, heq⟩
  · exact absurd (mem_mergeOrder h) (by simp [hnil])
  · rw [List.concat_eq_append] at heq
    rw [heq, List.getLast?_concat]
    by_contra hne
    obtain ⟨u, hu, -⟩ := exists_stepsUnmerged_of_ne heq fun hv => hne (congrArg some hv)
    exact absurd hu List.not_mem_nil

/-- A way along base edges leads from the start to every class of the order: the induction is on the
number of classes that come later. -/
theorem reflTransGen_of_mem_mergeOrder (heq : (a.mergeOrder start).value = before ++ v :: after) :
    Relation.ReflTransGen a.StepsUnmerged start v := by
  induction hn : after.length using Nat.strongRecOn generalizing before v after with
  | ind n ih =>
    by_cases hv : v = start
    · rw [hv]
    · obtain ⟨u, hu, hstep⟩ := exists_stepsUnmerged_of_ne heq hv
      obtain ⟨between, rest, rfl⟩ := List.append_of_mem hu
      have hlater : (a.mergeOrder start).value = (before ++ v :: between) ++ u :: rest := by
        rw [heq, List.append_assoc, List.cons_append]
      have hfewer : rest.length < n := by
        rw [← hn, List.length_append, List.length_cons]
        omega
      exact (ih rest.length hfewer hlater rfl).tail hstep

theorem mem_before_or_back_mergeOrder (hbound : a.options.maxInheritanceDepth = 0)
    (hstart : a.isUnmerged start = true) (heq : (a.mergeOrder start).value = before ++ u :: after)
    (hstep : a.StepsUp true u v) (hv : a.isUnmerged v = true) :
    v ∈ before ∨ Relation.ReflTransGen a.StepsUnmerged v u := by
  rw [value_mergeOrder hstart] at heq
  rw [← edge_baseGraph] at hstep
  exact ((a.baseGraph true).mem_before_or_back a.mergeRule (.of_injective Function.injective_id)
    (.inl hbound) trivial heq hstep (mem_nodes_of_isUnmerged hv) hv).imp_right
      fun h => (reflTransGen_stepsUnmerged hv h.2).2

/-- The order of a merge, cycles and bounds or not, has no class twice and ends with the start; all
its classes are unmerged. Without a bound it has all unmerged classes that the start leads to through
such classes, and each of them after its bases, unless the edge lies on a cycle. The walk is over after
as many steps as there are edges to look at and classes to enter and to leave. -/
theorem mergeOrder_isPostOrder (a : Atlas) (start : EntityId) (hstart : a.isUnmerged start = true) :
    let order := (a.mergeOrder start).value
    order.Nodup ∧ order.getLast? = some start ∧ (∀ id ∈ order, a.isUnmerged id = true) ∧
    ((a.baseGraph true).steps a.mergeRule start).length ≤ (a.baseGraph true).stepBound ∧
    (a.options.maxInheritanceDepth = 0 →
      (∀ id, id ∈ order ↔ Relation.ReflTransGen a.StepsUnmerged start id) ∧
      ∀ before u after, order = before ++ u :: after → ∀ edge ∈ a.bases u, edge.target ∈ order →
        edge.target ∈ before ∨ Relation.ReflTransGen a.StepsUnmerged edge.target u) := by
  refine ⟨a.nodup_mergeOrder start, getLast?_mergeOrder hstart,
    fun id => isUnmerged_of_mem_mergeOrder,
    length_steps_le (a.isRooted_and_isClosed_baseGraph true).1 _ start, fun hbound => ⟨fun id => ?_, ?_⟩⟩
  · constructor
    · intro hid
      obtain ⟨before, after, heq⟩ := List.append_of_mem hid
      exact reflTransGen_of_mem_mergeOrder heq
    · intro hreach
      rw [value_mergeOrder hstart]
      refine (a.baseGraph true).mem_finished_of_reachable a.mergeRule
        (.of_injective Function.injective_id) hbound trivial (.mono (fun x y hstep => ?_) _ _ hreach)
      exact ⟨entry_mergeRule_iff.mpr hstep.2, mem_nodes_of_isUnmerged hstep.2.2⟩
  · intro before u after heq edge hedge htarget
    exact mem_before_or_back_mergeOrder hbound hstart heq ⟨edge, hedge, rfl⟩
      (isUnmerged_of_mem_mergeOrder htarget)

/-- In the circle, each class but the first comes before the one that is derived from it; the edge
back to the first is the one that is out of order. -/
theorem mergeOrder_isPostOrder_roundabout :
    roundabout.isUnmerged ⟨1⟩ = true ∧ roundabout.options.maxInheritanceDepth = 0 ∧
      (roundabout.mergeOrder ⟨1⟩).value = [⟨3⟩, ⟨5⟩, ⟨2⟩, ⟨1⟩] ∧
      Relation.ReflTransGen roundabout.StepsUnmerged ⟨1⟩ ⟨5⟩ ∧
      ¬ Relation.ReflTransGen roundabout.StepsUnmerged ⟨1⟩ ⟨4⟩ := by
  have horder : (roundabout.mergeOrder ⟨1⟩).value = [⟨3⟩, ⟨5⟩, ⟨2⟩, ⟨1⟩] := by decide +kernel
  have hstart : roundabout.isUnmerged ⟨1⟩ = true := by decide +kernel
  obtain ⟨-, -, -, -, hexact⟩ := mergeOrder_isPostOrder roundabout ⟨1⟩ hstart
  obtain ⟨hreach, -⟩ := hexact rfl
  simp only [← hreach, horder]
  exact ⟨hstart, rfl, trivial, by decide, by decide⟩

end SymbolAtlas.Atlas
