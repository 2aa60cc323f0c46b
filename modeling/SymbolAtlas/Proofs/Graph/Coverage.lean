import SymbolAtlas.Proofs.Graph.PostOrder
import SymbolAtlas.Proofs.Graph.Trail

/-!
# What searches cover

Three searches go through a graph: a trail that visits the oldest waiting node first, one that visits
the newest first, and a depth-first walk. Whatever they find, a walk of edges leads to. The first one
finds all that walks within the bound lead to, each node at the length of a shortest walk; the other
two may mark a node on a long way and then miss what a shorter way to it would have led to, but where
no walk from the start exceeds the bound they find everything too.
-/

set_option autoImplicit false

namespace SymbolAtlas.Graph

variable {α : Type} {κ : Type} {g : Graph α} {limit : Nat} {start : α} {length : Nat} {x y : α}

/-- A walk along so many edges. -/
inductive Walk (g : Graph α) (start : α) : Nat → α → Prop where
  | refl : Walk g start 0 start
  | tail {length : Nat} {x y : α} (h : Walk g start length x) (hedge : g.Edge x y) :
      Walk g start (length + 1) y

theorem Walk.head {x y z : α} (hedge : g.Edge x y) (h : g.Walk y length z) :
    g.Walk x (length + 1) z := by
  induction h with
  | refl => exact .tail .refl hedge
  | tail _ hlast ih => exact ih.tail hlast

theorem Walk.reverse {g' : Graph α} {P : α → Prop} (hclosed : ∀ x y, P x → g.Edge x y → P y)
    (hedge : ∀ x y, P x → g.Edge x y → g'.Edge y x) {start x : α} (hstart : P start)
    (h : g.Walk start length x) : P x ∧ g'.Walk x length start := by
  induction h with
  | refl => exact ⟨hstart, .refl⟩
  | tail _ hlast ih =>
    obtain ⟨hx, hwalk⟩ := ih
    exact ⟨hclosed _ _ hx hlast, hwalk.head (hedge _ _ hx hlast)⟩

/-- Edges start from nodes of the graph only. -/
def IsRooted (g : Graph α) : Prop :=
  ∀ x y, g.Edge x y → x ∈ g.nodes

/-- Edges lead to nodes of the graph only. -/
def IsClosed (g : Graph α) : Prop :=
  ∀ x y, g.Edge x y → y ∈ g.nodes

theorem isRooted_and_isClosed_spanning {sources : List α} {next : α → List α}
    (h : ∀ x, ∀ y ∈ next x, x ∈ sources) :
    (spanning sources next).IsRooted ∧ (spanning sources next).IsClosed :=
  ⟨fun x y hedge => mem_nodes_spanning (h x y hedge) next,
    fun x y hedge => mem_nodes_spanning_of_mem_next (h x y hedge) hedge⟩

theorem transGen_edge_iff : Relation.TransGen g.Edge x y ↔ ∃ length, g.Walk x (length + 1) y := by
  constructor
  · intro h
    induction h with
    | single hedge => exact ⟨0, .tail .refl hedge⟩
    | tail _ hedge ih =>
      obtain ⟨length, hwalk⟩ := ih
      exact ⟨length + 1, hwalk.tail hedge⟩
  · rintro ⟨length, hwalk⟩
    induction length generalizing y with
    | zero =>
      obtain _ | ⟨hwalk, hedge⟩ := hwalk
      cases hwalk
      exact .single hedge
    | succ length ih =>
      obtain _ | ⟨hwalk, hedge⟩ := hwalk
      exact (ih hwalk).tail hedge

theorem reflTransGen_edge_iff : Relation.ReflTransGen g.Edge x y ↔ ∃ length, g.Walk x length y := by
  rw [Relation.reflTransGen_iff_eq_or_transGen, transGen_edge_iff]
  constructor
  · rintro (rfl | ⟨length, hwalk⟩)
    · exact ⟨0, .refl⟩
    · exact ⟨length + 1, hwalk⟩
  · rintro ⟨_ | length, hwalk⟩
    · cases hwalk
      exact .inl rfl
    · exact .inr ⟨length, hwalk⟩

/-- No walk from the start exceeds the bound. -/
def WalksFromWithin (g : Graph α) (limit : Nat) (start : α) : Prop :=
  ∀ length x, g.Walk start length x → IsWithin limit length

section Trail

variable [DecidableEq α] {turn : Turn} {waiting : List (α × Nat)} {seen : List α}
variable {depth : Nat}

/-! ## Trails -/

theorem walk_of_mem_trail {x : α} (h : (x, depth) ∈ g.trail turn limit start) :
    g.Walk start depth x ∧ IsWithin limit depth := by
  refine trailFrom_kept (P := fun x depth => g.Walk start depth x ∧ IsWithin limit depth) ?_ ?_ h
  · simpa using ⟨.refl, .inr (Nat.zero_le _)⟩
  · rintro x depth y ⟨hwalk, -⟩ hedge hwithin
    exact ⟨hwalk.tail hedge, hwithin⟩

theorem mem_trailFrom_of_mem_waiting {w : α × Nat} (hw : w ∈ waiting) :
    w ∈ g.trailFrom turn limit waiting seen := by
  fun_induction g.trailFrom turn limit waiting seen with
  | case1 => exact hw
  | case2 seen node depth waiting new ih =>
    rcases List.mem_cons.mp hw with rfl | hw
    · exact List.mem_cons_self
    · exact List.mem_cons_of_mem _ (ih (mem_enqueue.mpr (.inl hw)))

theorem start_mem_trail : (start, 0) ∈ g.trail turn limit start :=
  mem_trailFrom_of_mem_waiting List.mem_cons_self

/-- Where an edge of a visited node leads has been seen before, or is met from that node or from one
that was visited earlier. -/
theorem met_from_earlier {before after : List (α × Nat)}
    (h : g.trailFrom turn limit waiting seen = before ++ (x, depth) :: after)
    (hwithin : IsWithin limit (depth + 1)) (hedge : g.Edge x y) (hy : y ∈ g.nodes) :
    y ∈ seen ∨ ∃ earlier ∈ before ++ [(x, depth)],
      (y, earlier.2 + 1) ∈ g.trailFrom turn limit waiting seen := by
  fun_induction g.trailFrom turn limit waiting seen generalizing before with
  | case1 => simp at h
  | case2 seen node depth' waiting new =>
    rename_i ih
    -- what is met from the first node waits, and so is visited later
    have hmet : ∀ y ∈ new, (y, depth' + 1) ∈ (node, depth') :: g.trailFrom turn limit
        (enqueue turn waiting (new.map fun x => (x, depth' + 1))) (new.reverse ++ seen) := by
      intro y hy
      refine List.mem_cons_of_mem _ (mem_trailFrom_of_mem_waiting (mem_enqueue.mpr (.inr ?_)))
      exact List.mem_map_of_mem hy
    rcases before with _ | ⟨first, before⟩
    · obtain ⟨hfirst, -⟩ := List.cons.inj h
      obtain ⟨rfl, rfl⟩ := Prod.mk.inj hfirst
      by_cases hseen : y ∈ seen
      · exact .inl hseen
      · exact .inr ⟨_, List.mem_singleton_self _,
          hmet y (mem_met_iff.mpr ⟨hwithin, hedge, hy, hseen⟩)⟩
    · obtain ⟨rfl, hrest⟩ := List.cons.inj h
      rcases ih hrest with hseen | ⟨earlier, hearlier, hvisit⟩
      · rcases List.mem_append.mp hseen with hnew | hseen
        · exact .inr ⟨_, List.mem_cons_self, hmet y (List.mem_reverse.mp hnew)⟩
        · exact .inl hseen
      · exact .inr ⟨earlier, List.mem_cons_of_mem _ hearlier, List.mem_cons_of_mem _ hvisit⟩

theorem mem_trail_of_edge (h : (x, depth) ∈ g.trail turn limit start)
    (hwithin : IsWithin limit (depth + 1)) (hedge : g.Edge x y) (hy : y ∈ g.nodes) :
    ∃ depth', (y, depth') ∈ g.trail turn limit start := by
  obtain ⟨before, after, heq⟩ := List.append_of_mem h
  rcases met_from_earlier heq hwithin hedge hy with hseen | ⟨earlier, -, hvisit⟩
  · rw [List.mem_singleton.mp hseen]
    exact ⟨0, start_mem_trail⟩
  · exact ⟨_, hvisit⟩

theorem mem_trail_of_walk (hrooted : g.IsRooted) (hbound : g.WalksFromWithin limit start)
    (turn : Turn) {x : α} (hwalk : g.Walk start length x) (hx : x ∈ g.nodes) :
    ∃ depth, (x, depth) ∈ g.trail turn limit start := by
  induction hwalk with
  | refl => exact ⟨0, start_mem_trail⟩
  | @tail length x y hwalk hedge ih =>
    obtain ⟨depth, hvisit⟩ := ih (hrooted x y hedge)
    have hwalk' := (walk_of_mem_trail hvisit).1.tail hedge
    exact mem_trail_of_edge hvisit (hbound _ _ hwalk') hedge hx

section

variable (g : Graph α) (turn : Turn) (limit : Nat) (waiting : List (α × Nat)) (seen : List α)

theorem length_trailFrom_le :
    (g.trailFrom turn limit waiting seen).length ≤ g.unseen seen + waiting.length := by
  fun_induction g.trailFrom turn limit waiting seen with
  | case1 => exact Nat.zero_le _
  | case2 seen node depth waiting new ih =>
    have hnew : g.unseen (new.reverse ++ seen) + new.length ≤ g.unseen seen := by
      unfold new met
      split
      · simp
      · exact g.unseen_fresh seen (g.next node)
    rw [length_enqueue, List.length_map] at ih
    rw [List.length_cons, List.length_cons]
    omega

theorem unseen_le : g.unseen seen ≤ g.nodes.length := by
  unfold unseen
  induction g.nodes with
  | nil => exact Nat.le_refl 0
  | cons x nodes ih =>
    rw [unmarkedWeight, List.length_cons]
    split <;> omega

theorem length_trail_le (start : α) : (g.trail turn limit start).length ≤ g.nodes.length + 1 :=
  Nat.le_trans (g.length_trailFrom_le turn limit _ _)
    (Nat.add_le_add_right (g.unseen_le [start]) 1)

end

/-! ## Oldest first -/

/-- Waiting nodes in the order of their depths, which differ by one at most. -/
structure IsLayered (waiting : List (α × Nat)) : Prop where
  sorted : waiting.Pairwise fun v w => v.2 ≤ w.2
  close : ∀ v ∈ waiting, ∀ w ∈ waiting, w.2 ≤ v.2 + 1

omit [DecidableEq α] in
theorem IsLayered.visit {node : α} (h : IsLayered ((node, depth) :: waiting)) (new : List α) :
    IsLayered (enqueue .oldestFirst waiting (new.map fun x => (x, depth + 1))) := by
  obtain ⟨hfirst, hsorted⟩ := List.pairwise_cons.mp h.sorted
  have hlast : ∀ w ∈ waiting, w.2 ≤ depth + 1 := fun w hw =>
    h.close (node, depth) List.mem_cons_self w (List.mem_cons_of_mem _ hw)
  have hnew : ∀ w ∈ new.map fun x => (x, depth + 1), w.2 = depth + 1 := by
    intro w hw
    obtain ⟨x, -, rfl⟩ := List.mem_map.mp hw
    rfl
  refine ⟨List.pairwise_append.mpr ⟨hsorted, ?_, ?_⟩, ?_⟩
  · refine List.pairwise_of_forall_mem_list fun v hv w hw => ?_
    rw [hnew v hv, hnew w hw]
  · intro v hv w hw
    rw [hnew w hw]
    exact hlast v hv
  · intro v hv w hw
    rcases mem_enqueue.mp hv with hv | hv <;> rcases mem_enqueue.mp hw with hw | hw
    · exact h.close v (List.mem_cons_of_mem _ hv) w (List.mem_cons_of_mem _ hw)
    · have := hfirst v hv
      have := hnew w hw
      omega
    · have := hnew v hv
      have := hlast w hw
      omega
    · have := hnew v hv
      have := hnew w hw
      omega

theorem IsLayered.trailFrom_sorted (h : IsLayered waiting) :
    (g.trailFrom .oldestFirst limit waiting seen).Pairwise fun v w => v.2 ≤ w.2 := by
  fun_induction g.trailFrom .oldestFirst limit waiting seen with
  | case1 => exact .nil
  | case2 seen node depth waiting new ih =>
    refine List.pairwise_cons.mpr ⟨fun w hw => ?_, ih (h.visit new)⟩
    refine trailFrom_kept (P := fun _ depth' => depth ≤ depth') ?_ ?_ hw
    · intro v hv
      rcases mem_enqueue.mp hv with hv | hv
      · exact (List.pairwise_cons.mp h.sorted).1 v hv
      · obtain ⟨x, -, rfl⟩ := List.mem_map.mp hv
        exact Nat.le_succ depth
    · intro x depth' y hle _ _
      exact Nat.le_succ_of_le hle

theorem trail_oldestFirst_sorted (g : Graph α) (limit : Nat) (start : α) :
    (g.trail .oldestFirst limit start).Pairwise fun v w => v.2 ≤ w.2 :=
  IsLayered.trailFrom_sorted ⟨List.pairwise_singleton _ _, by simp⟩

/-- The oldest node first, a node is visited at a depth that no walk to it within the bound goes
below. -/
theorem mem_trail_oldestFirst_of_walk (hrooted : g.IsRooted) {x : α} (hwalk : g.Walk start length x)
    (hwithin : IsWithin limit length) (hx : x ∈ g.nodes) :
    ∃ depth ≤ length, (x, depth) ∈ g.trail .oldestFirst limit start := by
  induction hwalk with
  | refl => exact ⟨0, Nat.le_refl 0, start_mem_trail⟩
  | @tail length x y hwalk hedge ih =>
    have hwithin' : ∀ depth ≤ length, IsWithin limit (depth + 1) := by
      unfold IsWithin at hwithin ⊢
      omega
    obtain ⟨depth, hle, hvisit⟩ := ih (by unfold IsWithin at hwithin ⊢; omega) (hrooted x y hedge)
    obtain ⟨before, after, heq⟩ := List.append_of_mem hvisit
    rcases met_from_earlier heq (hwithin' depth hle) hedge hx with hseen | ⟨earlier, hearlier, hy⟩
    · rw [List.mem_singleton.mp hseen]
      exact ⟨0, Nat.zero_le _, start_mem_trail⟩
    · -- the node was met from one that was visited no later, and so at no greater depth
      have hsorted := g.trail_oldestFirst_sorted limit start
      have hdepth : earlier.2 ≤ depth := by
        rcases List.mem_append.mp hearlier with hbefore | hlast
        · rw [heq] at hsorted
          exact (List.pairwise_append.mp hsorted).2.2 earlier hbefore _ List.mem_cons_self
        · rw [List.mem_singleton.mp hlast]
      exact ⟨earlier.2 + 1, by omega, hy⟩

/-- The oldest node first, what is visited first of all that passes a test is visited at the least
depth. -/
theorem le_of_find?_trail_oldestFirst {test : α × Nat → Bool} {first visit : α × Nat}
    (hfirst : (g.trail .oldestFirst limit start).find? test = some first)
    (hvisit : visit ∈ g.trail .oldestFirst limit start) (htest : test visit = true) :
    first.2 ≤ visit.2 := by
  have hsorted := g.trail_oldestFirst_sorted limit start
  obtain ⟨-, before, after, heq, hbefore⟩ := List.find?_eq_some_iff_append.mp hfirst
  rw [heq] at hsorted hvisit
  rcases List.mem_append.mp hvisit with hvisit | hvisit
  · have hfails := hbefore visit hvisit
    rw [htest] at hfails
    cases hfails
  · rcases List.mem_cons.mp hvisit with rfl | hvisit
    · exact Nat.le_refl _
    · exact (List.pairwise_cons.mp (List.pairwise_append.mp hsorted).2.1).1 visit hvisit

/-- The oldest node first, the depth at which a node is visited first is the length of a shortest
walk to it. It is visited if that length is within the bound. -/
theorem find?_trail_oldestFirst_eq_some_iff (hrooted : g.IsRooted) (hclosed : g.IsClosed)
    {target : α} :
    ((g.trail .oldestFirst limit start).find? fun visit => visit.1 == target).map (·.2)
        = some length ↔
      g.Walk start length target ∧ (∀ length', g.Walk start length' target → length ≤ length') ∧
        IsWithin limit length := by
  -- A walk within the bound leads to a visit, and the first visit is no deeper.
  have hfound : ∀ length', g.Walk start length' target → IsWithin limit length' →
      ∃ first, ((g.trail .oldestFirst limit start).find? fun visit => visit.1 == target)
        = some first ∧ first.2 ≤ length' := by
    intro length' hwalk hwithin
    obtain ⟨depth, hle, hvisit⟩ : ∃ depth ≤ length', (target, depth) ∈
        g.trail .oldestFirst limit start := by
      cases hwalk with
      | refl => exact ⟨0, Nat.le_refl 0, start_mem_trail⟩
      | tail hwalk hedge =>
        exact mem_trail_oldestFirst_of_walk hrooted (hwalk.tail hedge) hwithin (hclosed _ _ hedge)
    have hsome : ((g.trail .oldestFirst limit start).find? fun visit =>
        visit.1 == target).isSome = true :=
      List.find?_isSome.mpr ⟨(target, depth), hvisit, beq_self_eq_true target⟩
    obtain ⟨first, hfirst⟩ := Option.isSome_iff_exists.mp hsome
    have hdepth := le_of_find?_trail_oldestFirst hfirst hvisit (beq_self_eq_true target)
    exact ⟨first, hfirst, Nat.le_trans hdepth hle⟩
  have hvisited : ∀ first, ((g.trail .oldestFirst limit start).find? fun visit =>
      visit.1 == target) = some first → g.Walk start first.2 target ∧ IsWithin limit first.2 := by
    rintro ⟨x, depth⟩ hfirst
    obtain rfl : x = target := by simpa using List.find?_some hfirst
    exact walk_of_mem_trail (List.mem_of_find?_eq_some hfirst)
  constructor
  · intro h
    obtain ⟨first, hfirst, rfl⟩ := Option.map_eq_some_iff.mp h
    obtain ⟨hwalk, hwithin⟩ := hvisited first hfirst
    refine ⟨hwalk, fun length' hwalk' => ?_, hwithin⟩
    by_cases hwithin' : IsWithin limit length'
    · obtain ⟨first', hfirst', hle⟩ := hfound length' hwalk' hwithin'
      obtain rfl : first = first' := Option.some.inj (hfirst.symm.trans hfirst')
      exact hle
    · have hlong := not_isWithin_iff.mp hwithin'
      unfold IsWithin at hwithin
      omega
  · rintro ⟨hwalk, hleast, hwithin⟩
    obtain ⟨first, hfirst, hle⟩ := hfound length hwalk hwithin
    have hge := hleast first.2 (hvisited first hfirst).1
    rw [hfirst, Option.map_some, Nat.le_antisymm hle hge]

end Trail

/-! ## Depth-first walks -/

section DepthFirst

variable {rule : WalkRule α κ} {frames : List (α × List α)} {marked : List κ}

/-- The edge to a node is looked at in one of the steps. -/
def LooksAt (steps : List (Step α)) (y : α) : Prop :=
  ∃ step ∈ steps, step.target? = some y

/-- No step meets the bound. -/
def IsShallow (steps : List (Step α)) : Prop :=
  ∀ x y, .tooDeep x y ∉ steps

/-- A walk from the start leads to each node that the search is inside of, along the nodes further
out, within the bound; what is still to be looked at are edges of the node. -/
def IsInside (g : Graph α) (limit : Nat) (start : α) : List (α × List α) → Prop
  | [] => True
  | (x, todo) :: outer =>
    g.Walk start outer.length x ∧ IsWithin limit outer.length ∧ todo ⊆ g.next x ∧
      g.IsInside limit start outer

/-- The edge that a step looks at starts from a node to which a walk within the bound leads; a step
that meets the bound would make that walk too long. -/
def IsOnWalk (g : Graph α) (limit : Nat) (start : α) (step : Step α) : Prop :=
  ∀ y, step.target? = some y → ∃ length x, g.Walk start length x ∧ IsWithin limit length ∧
    g.Edge x y ∧ ((∃ u v, step = .tooDeep u v) → ¬ IsWithin limit (length + 1))

variable [DecidableEq α] [DecidableEq κ]

/-- Every step of a walk is taken along edges from its start, within the limit. -/
theorem IsInside.isOnWalk (h : g.IsInside rule.limit start frames) :
    ∀ step ∈ g.stepsFrom rule frames marked, g.IsOnWalk rule.limit start step := by
  revert h
  refine g.stepsFrom_induction rule (P := fun frames _ steps => g.IsInside rule.limit start frames →
    ∀ step ∈ steps, g.IsOnWalk rule.limit start step) ?_ ?_ ?_ ?_ frames marked
  · intro marked _ step hstep
    exact absurd hstep List.not_mem_nil
  · intro node outer marked steps ih hinside
    refine List.forall_mem_cons.mpr ⟨?_, ih hinside.2.2.2⟩
    intro y hy
    cases hy
  · rintro node target todo outer marked step steps htarget hskip ih ⟨hwalk, hwithin, htodo, houter⟩
    obtain ⟨hedge, hrest⟩ := List.cons_subset.mp htodo
    refine List.forall_mem_cons.mpr ⟨?_, ih ⟨hwalk, hwithin, hrest, houter⟩⟩
    intro y hy
    obtain rfl : target = y := Option.some.inj (htarget.symm.trans hy)
    refine ⟨outer.length, node, hwalk, hwithin, hedge, ?_⟩
    rintro ⟨u, v, rfl⟩
    rcases hskip with ⟨-, hnot⟩ | ⟨hdeep, -⟩
    · exact absurd rfl (hnot u v)
    · exact not_isWithin_iff.mpr hdeep
  · rintro node target todo outer marked steps - - - hshallow ih ⟨hwalk, hwithin, htodo, houter⟩
    obtain ⟨hedge, hrest⟩ := List.cons_subset.mp htodo
    have hwithin' : IsWithin rule.limit (outer.length + 1) := by
      by_contra hnot
      exact hshallow (not_isWithin_iff.mp hnot)
    refine List.forall_mem_cons.mpr ⟨?_, ih ⟨hwalk.tail hedge, hwithin', List.Subset.refl _, hwalk,
      hwithin, hrest, houter⟩⟩
    intro y hy
    obtain rfl : target = y := Option.some.inj hy
    refine ⟨outer.length, node, hwalk, hwithin, hedge, ?_⟩
    rintro ⟨u, v, heq⟩
    cases heq

theorem isOnWalk_steps (g : Graph α) (rule : WalkRule α κ) (start : α) :
    ∀ step ∈ g.steps rule start, g.IsOnWalk rule.limit start step :=
  IsInside.isOnWalk ⟨.refl, .inr (Nat.zero_le _), List.Subset.refl _, trivial⟩

theorem WalksFromWithin.isShallow (h : g.WalksFromWithin rule.limit start) :
    IsShallow (g.steps rule start) := by
  intro u v hstep
  obtain ⟨length, x, hwalk, -, hedge, hdeep⟩ := g.isOnWalk_steps rule start _ hstep v rfl
  exact hdeep ⟨u, v, rfl⟩ (h _ _ (hwalk.tail hedge))

/-- A search that does not meet the bound looks at every edge that is still to be looked at, and at
every edge of a node that it looks at and may enter, unless it has entered that node before. -/
theorem looksAt_of_isShallow (hkey : Function.Injective rule.key)
    (hshallow : IsShallow (g.stepsFrom rule frames marked)) :
    (∀ frame ∈ frames, ∀ y ∈ frame.2, LooksAt (g.stepsFrom rule frames marked) y) ∧
    ∀ y, LooksAt (g.stepsFrom rule frames marked) y → y ∈ g.nodes → rule.admits y = true →
      rule.key y ∈ marked ∨ ∀ z, g.Edge y z → LooksAt (g.stepsFrom rule frames marked) z := by
  revert hshallow
  refine g.stepsFrom_induction rule (P := fun frames marked steps => IsShallow steps →
    (∀ frame ∈ frames, ∀ y ∈ frame.2, LooksAt steps y) ∧
    ∀ y, LooksAt steps y → y ∈ g.nodes → rule.admits y = true →
      rule.key y ∈ marked ∨ ∀ z, g.Edge y z → LooksAt steps z) ?_ ?_ ?_ ?_ frames marked
  · simp [LooksAt]
  · intro node outer marked steps ih hshallow
    have hlooks : ∀ y, LooksAt (.leave node :: steps) y ↔ LooksAt steps y := by
      simp [LooksAt, Step.target?]
    simp only [hlooks, List.forall_mem_cons]
    obtain ⟨htodo, hnodes⟩ := ih fun x y hmem => hshallow x y (List.mem_cons_of_mem _ hmem)
    exact ⟨⟨by simp, htodo⟩, hnodes⟩
  · intro node target todo outer marked step steps htarget hskip ih hshallow
    have hmark : rule.key target ∈ marked ∨ ¬ (target ∈ g.nodes ∧ rule.admits target = true) := by
      rcases hskip with ⟨hmark, -⟩ | ⟨-, rfl⟩
      · exact hmark
      · exact absurd List.mem_cons_self (hshallow node target)
    have hlooks : ∀ y, LooksAt (step :: steps) y ↔ target = y ∨ LooksAt steps y := by
      simp [LooksAt, htarget]
    obtain ⟨htodo, hnodes⟩ := ih fun x y hmem => hshallow x y (List.mem_cons_of_mem _ hmem)
    simp only [List.forall_mem_cons] at htodo
    simp only [hlooks, List.forall_mem_cons]
    refine ⟨⟨⟨.inl trivial, fun y hy => .inr (htodo.1 y hy)⟩,
      fun frame hframe y hy => .inr (htodo.2 frame hframe y hy)⟩, ?_⟩
    rintro y (rfl | hy) hin hadmits
    · exact .inl (hmark.resolve_right fun hnot => hnot ⟨hin, hadmits⟩)
    · exact (hnodes y hy hin hadmits).imp_right fun hz z hedge => .inr (hz z hedge)
  · intro node target todo outer marked steps _ _ _ _ ih hshallow
    have hlooks : ∀ y, LooksAt (.enter node target :: steps) y ↔ target = y ∨ LooksAt steps y := by
      simp [LooksAt, Step.target?]
    obtain ⟨htodo, hnodes⟩ := ih fun x y hmem => hshallow x y (List.mem_cons_of_mem _ hmem)
    simp only [List.forall_mem_cons] at htodo
    obtain ⟨hentered, hnode, houter⟩ := htodo
    simp only [hlooks, List.forall_mem_cons]
    refine ⟨⟨⟨.inl trivial, fun y hy => .inr (hnode y hy)⟩,
      fun frame hframe y hy => .inr (houter frame hframe y hy)⟩, ?_⟩
    rintro y (rfl | hy) hin hadmits
    · exact .inr fun z hedge => .inr (hentered z hedge)
    · rcases hnodes y hy hin hadmits with hmark | hz
      · rcases List.mem_cons.mp hmark with hkey' | hmark
        · obtain rfl := hkey hkey'
          exact .inr fun z hedge => .inr (hentered z hedge)
        · exact .inl hmark
      · exact .inr fun z hedge => .inr (hz z hedge)

/-- A depth-first walk that enters whatever it may and does not meet the bound looks at the last edge
of every walk from its start. -/
theorem looksAt_of_walk (hrooted : g.IsRooted) (hkey : Function.Injective rule.key)
    (hadmits : ∀ x, rule.admits x = true) (hshallow : IsShallow (g.steps rule start))
    (hwalk : g.Walk start length x) (hedge : g.Edge x y) : LooksAt (g.steps rule start) y := by
  obtain ⟨htodo, hnodes⟩ := looksAt_of_isShallow hkey hshallow
  have hstart : ∀ z, g.Edge start z → LooksAt (g.steps rule start) z :=
    htodo (start, g.next start) List.mem_cons_self
  induction hwalk generalizing y with
  | refl => exact hstart y hedge
  | @tail length u x _ hedge' ih =>
    rcases hnodes x (ih hedge') (hrooted x y hedge) (hadmits x) with hmark | hlooks
    · obtain rfl := hkey (List.mem_singleton.mp hmark)
      exact hstart y hedge
    · exact hlooks y hedge

/-- As many steps as there are edges to look at and nodes to enter and to leave, and one more for a
start that is no node. -/
def stepBound (g : Graph α) : Nat :=
  (g.nodes.flatMap g.next).length + 2 * g.nodes.length + 1

theorem length_stepsFrom_le (g : Graph α) (rule : WalkRule α κ) (frames : List (α × List α))
    (marked : List κ) :
    (g.stepsFrom rule frames marked).length ≤
      unmarkedWeight (fun x => (g.next x).length + 2) rule.key marked g.nodes
        + pendingWork frames := by
  refine g.stepsFrom_induction rule (P := fun frames marked steps => steps.length ≤
    unmarkedWeight (fun x => (g.next x).length + 2) rule.key marked g.nodes
      + pendingWork frames) ?_ ?_ ?_ ?_ frames marked
  · intro marked
    exact Nat.zero_le _
  · simp only [pendingWork, List.length_cons, List.length_nil]
    omega
  · intro node target todo outer marked step steps _ _ ih
    simp only [pendingWork, List.length_cons] at ih ⊢
    omega
  · intro node target todo outer marked steps hnew hin _ _ ih
    have hmark := unmarkedWeight_mark (fun x => (g.next x).length + 2) rule.key hin hnew
    simp only [pendingWork, List.length_cons] at ih hmark ⊢
    omega

omit [DecidableEq α] in
theorem unmarkedWeight_nil (g : Graph α) (key : α → κ) (nodes : List α) :
    unmarkedWeight (fun x => (g.next x).length + 2) key [] nodes =
      (nodes.flatMap g.next).length + 2 * nodes.length := by
  induction nodes with
  | nil => rfl
  | cons x rest ih =>
    simp only [unmarkedWeight, List.not_mem_nil, if_false, ih, List.flatMap_cons,
      List.length_append, List.length_cons]
    omega

theorem length_steps_le (hrooted : g.IsRooted) (rule : WalkRule α κ) (start : α) :
    (g.steps rule start).length ≤ g.stepBound := by
  unfold stepBound
  have hle := g.length_stepsFrom_le rule [(start, g.next start)] [rule.key start]
  rw [← g.unmarkedWeight_nil rule.key]
  refine Nat.le_trans hle ?_
  simp only [pendingWork]
  by_cases hstart : start ∈ g.nodes
  · have hmark := unmarkedWeight_mark (fun x => (g.next x).length + 2) rule.key hstart
      (List.not_mem_nil)
    omega
  · have hcons := unmarkedWeight_cons_le (fun x => (g.next x).length + 2) rule.key (rule.key start)
      [] g.nodes
    have hnext : g.next start = [] := by
      rw [List.eq_nil_iff_forall_not_mem]
      exact fun y hedge => hstart (hrooted start y hedge)
    rw [hnext, List.length_nil]
    omega

end DepthFirst

end SymbolAtlas.Graph
