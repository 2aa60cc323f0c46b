import SymbolAtlas.Proofs.Graph.PostOrder

/-!
# What a depth-first walk discovers

A walk without a bound leaves everything that can be reached from its start through nodes which may
be entered. Each node that it leaves, except for the start, was entered from one that is left later;
going up like that from node to node leads to the start, however many cycles there are.
-/

set_option autoImplicit false

namespace SymbolAtlas.Graph

variable {α κ : Type} [DecidableEq α] [DecidableEq κ] (g : Graph α) (rule : WalkRule α κ)

/-- Whatever a walk leaves, apart from the outermost node it is inside of, was entered from a node
that it leaves later. -/
theorem exists_later_source (frames : List (α × List α)) (marked : List κ)
    (hchain : (inside frames).IsChain fun x y => g.Edge y x)
    (htodo : ∀ frame ∈ frames, frame.2 ⊆ g.next frame.1) (before : List α) (x : α) (after : List α)
    (heq : finished (g.stepsFrom rule frames marked) = before ++ x :: after) :
    (inside frames).getLast? = some x ∨ ∃ p ∈ after, g.Edge p x := by
  revert hchain htodo before x after
  refine (g.finished_induction rule (P := fun frames _ order => inside frames ⊆ order ∧
    ((inside frames).IsChain (fun x y => g.Edge y x) →
      (∀ frame ∈ frames, frame.2 ⊆ g.next frame.1) → ∀ before x after,
      order = before ++ x :: after →
      (inside frames).getLast? = some x ∨ ∃ p ∈ after, g.Edge p x)) ?_ ?_ ?_ ?_ frames marked).2
  · intro marked
    exact ⟨List.nil_subset _, fun _ _ before x after heq => by simp at heq⟩
  · rintro node outer marked order ⟨hsubset, ih⟩
    refine ⟨List.cons_subset_cons node hsubset, fun hchain htodo before x after heq => ?_⟩
    rcases before with _ | ⟨first, before⟩
    · -- The innermost node was entered from the next one, which is still to be left.
      obtain ⟨rfl, rfl⟩ := List.cons.inj heq
      rcases outer with _ | ⟨⟨p, todo⟩, outer⟩
      · exact .inl rfl
      · exact .inr ⟨p, hsubset List.mem_cons_self, (List.isChain_cons_cons.mp hchain).1⟩
    · obtain ⟨rfl, horder⟩ := List.cons.inj heq
      have hrest := ih hchain.tail
        (fun frame hframe => htodo frame (List.mem_cons_of_mem _ hframe)) before x after horder
      refine hrest.imp_left fun hlast => ?_
      rw [inside_cons, List.getLast?_cons, hlast]
      rfl
  · rintro node target todo outer marked order _ ⟨hsubset, ih⟩
    refine ⟨hsubset, fun hchain htodo => ih hchain ?_⟩
    rw [List.forall_mem_cons] at htodo ⊢
    exact ⟨List.subset_of_cons_subset htodo.1, htodo.2⟩
  · rintro node target todo outer marked order _ _ _ ⟨hsubset, ih⟩
    refine ⟨List.subset_of_cons_subset hsubset, fun hchain htodo before x after heq => ?_⟩
    rw [List.forall_mem_cons] at htodo
    have hedge : g.Edge node target := htodo.1 List.mem_cons_self
    have hframes := ih (List.isChain_cons_cons.mpr ⟨hedge, hchain⟩)
      (by
        simp only [List.forall_mem_cons]
        exact ⟨List.Subset.refl _, List.subset_of_cons_subset htodo.1, htodo.2⟩)
      before x after heq
    simpa [inside] using hframes

theorem exists_later_source_of_ne {start x : α} {before after : List α}
    (heq : finished (g.steps rule start) = before ++ x :: after) (hne : x ≠ start) :
    ∃ p ∈ after, g.Edge p x := by
  rcases g.exists_later_source rule [(start, g.next start)] [rule.key start]
    (List.isChain_singleton _) (by simp) before x after heq with hlast | hlater
  · exact absurd (Option.some.inj hlast).symm hne
  · exact hlater

/-- Without a limit, all that can be reached is finished. -/
theorem mem_finished_of_reachable {kind : α → Prop} (hapart : g.KeysApart rule kind)
    (hlimit : rule.limit = 0) {start : α} (hstart : kind start)
    {x : α} (hreach : Relation.ReflTransGen (fun x y => g.Entry rule x y ∧ y ∈ g.nodes) start x) :
    x ∈ finished (g.steps rule start) := by
  induction hreach with
  | refl => exact (g.finished_steps rule start).1
  | @tail x y _ hentry ih =>
    obtain ⟨⟨hedge, hadmits⟩, hin⟩ := hentry
    obtain ⟨before, after, heq⟩ := List.append_of_mem ih
    rw [heq, List.mem_append]
    exact (g.mem_before_or_back rule hapart (.inl hlimit) hstart heq hedge hin hadmits).imp_right
      (·.1)

end SymbolAtlas.Graph
