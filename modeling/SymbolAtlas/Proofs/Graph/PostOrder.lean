import Mathlib.Data.List.Chain
import SymbolAtlas.Graph.DepthFirst

/-!
# The order in which a depth-first walk leaves nodes

A walk matters to its callers by the list of nodes it leaves. One induction principle says how that
list comes about; from it follow which nodes are listed, that none is listed twice, and that a node
is listed after everything its edges lead to, unless the edge closes a cycle.
-/

set_option autoImplicit false

namespace SymbolAtlas

/-- Whether an edge is too deep for a walk that is inside of the nodes of `outer` and of one
more. -/
def WalkRule.IsTooDeep {α κ : Type} (rule : WalkRule α κ) (outer : List (α × List α)) : Prop :=
  0 < rule.limit ∧ rule.limit < outer.length + 1

namespace Graph

variable {α : Type} {κ : Type}

/-- An edge leads from `x` to `y`. -/
def Edge (g : Graph α) (x y : α) : Prop :=
  y ∈ g.next x

/-- The nodes that a walk is inside of, the innermost one first. -/
def inside (frames : List (α × List α)) : List α :=
  frames.map (·.1)

@[simp] theorem inside_nil : inside ([] : List (α × List α)) = [] := rfl

@[simp] theorem inside_cons (frame : α × List α) (frames : List (α × List α)) :
    inside (frame :: frames) = frame.1 :: inside frames := rfl

/-- An edge leads from `x` to `y`, which may be entered. -/
def Entry (g : Graph α) (rule : WalkRule α κ) (x y : α) : Prop :=
  g.Edge x y ∧ rule.admits y = true

theorem reflTransGen_of_isChain {r : α → α → Prop} {x y : α} {nodes : List α}
    (h : (x :: nodes).IsChain fun a b => r b a) (hy : y ∈ x :: nodes) :
    Relation.ReflTransGen r y x := by
  induction nodes generalizing x with
  | nil =>
    rw [List.mem_singleton.mp hy]
  | cons z rest ih =>
    obtain ⟨hedge, hrest⟩ := List.isChain_cons_cons.mp h
    rcases List.mem_cons.mp hy with rfl | hy
    · exact .refl
    · exact (ih hrest hy).tail hedge

/-- All edges lead to nodes of a kind that keys tell apart. -/
structure KeysApart (g : Graph α) (rule : WalkRule α κ) (kind : α → Prop) : Prop where
  target : ∀ x y, g.Edge x y → kind y
  eq_of_key : ∀ x y, kind x → kind y → rule.key x = rule.key y → x = y

theorem KeysApart.of_injective {g : Graph α} {rule : WalkRule α κ}
    (h : Function.Injective rule.key) : g.KeysApart rule fun _ => True :=
  ⟨fun _ _ _ => trivial, fun _ _ _ _ hkey => h hkey⟩

/-! ## Where a walk stands -/

/-- Where a walk stands that has left the nodes of `left`: marked nodes have been left or the walk
is inside of them, each node it is inside of was entered from the next one, and the edges that have
been looked at led to nodes left before or to such as the walk is inside of. -/
structure Standing (g : Graph α) (rule : WalkRule α κ) (kind : α → Prop)
    (frames : List (α × List α)) (marked : List κ) (left : List α) : Prop where
  marks : ∀ x, kind x → rule.key x ∈ marked → x ∈ left ∨ x ∈ inside frames
  chain : (inside frames).IsChain fun x y => g.Entry rule y x
  todo : ∀ frame ∈ frames, frame.2 ⊆ g.next frame.1
  looked : ∀ frame ∈ frames, ∀ v, g.Edge frame.1 v → v ∈ g.nodes → rule.admits v = true →
    v ∈ frame.2 ∨ v ∈ left ∨ v ∈ inside frames

namespace Standing

variable {g : Graph α} {rule : WalkRule α κ} {kind : α → Prop} {node target : α} {todo : List α}
variable {outer : List (α × List α)} {marked : List κ} {left : List α}

theorem start (hapart : g.KeysApart rule kind) {start : α} (hstart : kind start) :
    Standing g rule kind [(start, g.next start)] [rule.key start] [] where
  marks x hkind hx := by
    rw [hapart.eq_of_key x start hkind hstart (List.mem_singleton.mp hx)]
    exact .inr List.mem_cons_self
  chain := List.isChain_singleton _
  todo := by simp
  looked := by simpa using fun v hv _ _ => .inl hv

theorem leave (h : Standing g rule kind ((node, []) :: outer) marked left) :
    Standing g rule kind outer marked (left ++ [node]) := by
  have hleft (x : α) (hx : x ∈ left ∨ x ∈ inside ((node, []) :: outer)) :
      x ∈ left ++ [node] ∨ x ∈ inside outer := by
    rw [inside_cons, List.mem_cons] at hx
    rw [List.mem_append, List.mem_singleton, or_assoc]
    exact hx
  exact ⟨fun x hkind hx => hleft x (h.marks x hkind hx), h.chain.tail,
    (List.forall_mem_cons.mp h.todo).2, fun frame hframe v hv hin hadmits =>
      (h.looked frame (List.mem_cons_of_mem _ hframe) v hv hin hadmits).imp_right (hleft v)⟩

theorem skip (h : Standing g rule kind ((node, target :: todo) :: outer) marked left)
    (hapart : g.KeysApart rule kind)
    (hskip : rule.key target ∈ marked ∨ ¬ (target ∈ g.nodes ∧ rule.admits target = true)) :
    Standing g rule kind ((node, todo) :: outer) marked left := by
  have htodo := h.todo
  have hlooked := h.looked
  rw [List.forall_mem_cons] at htodo hlooked
  refine ⟨h.marks, h.chain, List.forall_mem_cons.mpr ⟨List.subset_of_cons_subset htodo.1, htodo.2⟩,
    List.forall_mem_cons.mpr ⟨fun v hv hin hadmits => ?_, hlooked.2⟩⟩
  rcases hlooked.1 v hv hin hadmits with hmem | hmem
  · rcases List.mem_cons.mp hmem with rfl | hmem
    · exact .inr (h.marks v (hapart.target _ _ hv)
        (hskip.resolve_right fun hnot => hnot ⟨hin, hadmits⟩))
    · exact .inl hmem
  · exact .inr hmem

theorem enter (h : Standing g rule kind ((node, target :: todo) :: outer) marked left)
    (hapart : g.KeysApart rule kind) (hadmits : rule.admits target = true) :
    Standing g rule kind ((target, g.next target) :: (node, todo) :: outer)
      (rule.key target :: marked) left := by
  have htodo := h.todo
  have hlooked := h.looked
  rw [List.forall_mem_cons] at htodo hlooked
  have hedge : g.Edge node target := htodo.1 List.mem_cons_self
  have hleft (x : α) : x ∈ left ∨ x ∈ inside ((node, target :: todo) :: outer) →
      x ∈ left ∨ x ∈ inside ((target, g.next target) :: (node, todo) :: outer) :=
    Or.imp_right (List.mem_cons_of_mem _)
  refine ⟨fun x hkind hx => ?_, List.isChain_cons_cons.mpr ⟨⟨hedge, hadmits⟩, h.chain⟩, ?_, ?_⟩
  · rcases List.mem_cons.mp hx with hx | hx
    · rw [hapart.eq_of_key x target hkind (hapart.target node target hedge) hx]
      exact .inr List.mem_cons_self
    · exact hleft x (h.marks x hkind hx)
  · simp only [List.forall_mem_cons]
    exact ⟨List.Subset.refl _, List.subset_of_cons_subset htodo.1, htodo.2⟩
  · simp only [List.forall_mem_cons]
    refine ⟨fun v hv _ _ => .inl hv, fun v hv hin hadmits => ?_, fun frame hframe v hv hin hadmits =>
      (hlooked.2 frame hframe v hv hin hadmits).imp_right (hleft v)⟩
    rcases hlooked.1 v hv hin hadmits with hmem | hmem
    · rcases List.mem_cons.mp hmem with rfl | hmem
      · exact .inr (.inr List.mem_cons_self)
      · exact .inl hmem
    · exact .inr (hleft v hmem)

end Standing

/-- No chain of edges is so long that a walk under the rule meets its bound. -/
def WalksWithin (g : Graph α) (limit : Nat) : Prop :=
  limit = 0 ∨ ∀ nodes : List α, (nodes.IsChain fun x y => g.Edge y x) → nodes.length ≤ limit + 1

/-! ## The nodes that are left -/

theorem finished_of_target? {step : Step α} {y : α} (h : step.target? = some y)
    (steps : List (Step α)) : finished (step :: steps) = finished steps := by
  cases step with
  | leave x => cases h
  | enter x y | cycle x y | pass x y | tooDeep x y => rfl

variable [DecidableEq α] [DecidableEq κ]

variable (g : Graph α) (rule : WalkRule α κ) (frames : List (α × List α)) (marked : List κ)

/-- How the steps of a walk come about: an innermost node without further edges is left, and an edge
is looked at and then either passed over or entered. -/
theorem stepsFrom_induction {P : List (α × List α) → List κ → List (Step α) → Prop}
    (nil : ∀ marked, P [] marked [])
    (leave : ∀ node outer marked steps, P outer marked steps →
      P ((node, []) :: outer) marked (.leave node :: steps))
    (skip : ∀ node target todo outer marked step steps, step.target? = some target →
      ((rule.key target ∈ marked ∨ ¬ (target ∈ g.nodes ∧ rule.admits target = true)) ∧
          (∀ x y, step ≠ .tooDeep x y)) ∨
        (rule.IsTooDeep outer ∧ step = .tooDeep node target) →
      P ((node, todo) :: outer) marked steps →
      P ((node, target :: todo) :: outer) marked (step :: steps))
    (enter : ∀ node target todo outer marked steps,
      rule.key target ∉ marked → target ∈ g.nodes → rule.admits target = true →
      ¬ rule.IsTooDeep outer →
      P ((target, g.next target) :: (node, todo) :: outer) (rule.key target :: marked) steps →
      P ((node, target :: todo) :: outer) marked (.enter node target :: steps))
    (frames : List (α × List α)) (marked : List κ) :
    P frames marked (g.stepsFrom rule frames marked) := by
  induction frames, marked using stepsFrom.induct g rule with
  | case1 marked =>
    rw [stepsFrom]
    exact nil marked
  | case2 marked node outer ih =>
    rw [stepsFrom]
    exact leave node outer marked _ ih
  | case3 marked node target todo outer hmarked ih =>
    rw [stepsFrom, if_pos hmarked]
    refine skip node target todo outer marked _ _ ?_ (.inl ⟨.inl hmarked, ?_⟩) ih
    · split <;> rfl
    · split <;> simp
  | case4 marked node target todo outer hmarked hadmits hdeep ih =>
    rw [stepsFrom, if_neg hmarked, if_pos hadmits, if_pos hdeep]
    exact skip node target todo outer marked _ _ rfl (.inr ⟨hdeep, rfl⟩) ih
  | case5 marked node target todo outer hmarked hadmits hdeep ih =>
    rw [stepsFrom, if_neg hmarked, if_pos hadmits, if_neg hdeep]
    exact enter node target todo outer marked _ hmarked hadmits.1 hadmits.2 hdeep ih
  | case6 marked node target todo outer hmarked hadmits ih =>
    rw [stepsFrom, if_neg hmarked, if_neg hadmits]
    exact skip node target todo outer marked _ _ rfl
      (.inl ⟨.inr hadmits, by simp⟩) ih

/-- How the list of left nodes comes about: an innermost node without further edges is left, and an
edge is either passed over or entered. -/
theorem finished_induction {P : List (α × List α) → List κ → List α → Prop}
    (nil : ∀ marked, P [] marked [])
    (leave : ∀ node outer marked order, P outer marked order →
      P ((node, []) :: outer) marked (node :: order))
    (skip : ∀ node target todo outer marked order,
      rule.key target ∈ marked ∨ ¬ (target ∈ g.nodes ∧ rule.admits target = true) ∨
        rule.IsTooDeep outer →
      P ((node, todo) :: outer) marked order → P ((node, target :: todo) :: outer) marked order)
    (enter : ∀ node target todo outer marked order,
      rule.key target ∉ marked → target ∈ g.nodes → rule.admits target = true →
      P ((target, g.next target) :: (node, todo) :: outer) (rule.key target :: marked) order →
      P ((node, target :: todo) :: outer) marked order)
    (frames : List (α × List α)) (marked : List κ) :
    P frames marked (finished (g.stepsFrom rule frames marked)) := by
  refine g.stepsFrom_induction rule (P := fun frames marked steps => P frames marked (finished steps))
    nil ?_ ?_ ?_ frames marked
  · intro node outer marked steps ih
    exact leave node outer marked _ ih
  · intro node target todo outer marked step steps htarget hskip ih
    rw [finished_of_target? htarget]
    refine skip node target todo outer marked _ ?_ ih
    rcases hskip with ⟨hmarked | hnot, -⟩ | ⟨hdeep, -⟩
    · exact .inl hmarked
    · exact .inr (.inl hnot)
    · exact .inr (.inr hdeep)
  · intro node target todo outer marked steps hnew hin hadmits _ ih
    exact enter node target todo outer marked _ hnew hin hadmits ih

/-- A walk leaves the nodes it is inside of, and such as it may enter and has not entered before;
none of them twice. -/
theorem finished_mem_and_nodup (hframes : ((inside frames).map rule.key).Nodup)
    (hmarked : ∀ x ∈ inside frames, rule.key x ∈ marked) :
    (∀ x ∈ finished (g.stepsFrom rule frames marked), x ∈ inside frames ∨
      (rule.key x ∉ marked ∧ x ∈ g.nodes ∧ rule.admits x = true)) ∧
    ((finished (g.stepsFrom rule frames marked)).map rule.key).Nodup := by
  revert hframes hmarked
  refine g.finished_induction rule (P := fun frames marked order =>
    ((inside frames).map rule.key).Nodup → (∀ x ∈ inside frames, rule.key x ∈ marked) →
    (∀ x ∈ order, x ∈ inside frames ∨
      (rule.key x ∉ marked ∧ x ∈ g.nodes ∧ rule.admits x = true)) ∧
    (order.map rule.key).Nodup) ?_ ?_ ?_ ?_ frames marked
  · simp
  · intro node outer marked order ih hframes hmarked
    rw [inside_cons, List.map_cons, List.nodup_cons] at hframes
    have houter : ∀ x ∈ inside outer, rule.key x ∈ marked :=
      fun x hx => hmarked x (List.mem_cons_of_mem _ hx)
    obtain ⟨hmem, hnodup⟩ := ih hframes.2 houter
    constructor
    · intro x hx
      rcases List.mem_cons.mp hx with rfl | hx
      · exact .inl List.mem_cons_self
      · rcases hmem x hx with hin | hnew
        · exact .inl (List.mem_cons_of_mem _ hin)
        · exact .inr hnew
    · rw [List.map_cons, List.nodup_cons]
      refine ⟨?_, hnodup⟩
      intro hnode
      obtain ⟨x, hx, hkey⟩ := List.mem_map.mp hnode
      rcases hmem x hx with hin | ⟨hnew, -⟩
      · exact hframes.1 (hkey ▸ List.mem_map_of_mem hin)
      · rw [hkey] at hnew
        exact hnew (hmarked node List.mem_cons_self)
  · intro node target todo outer marked order _ ih hframes hmarked
    exact ih hframes hmarked
  · intro node target todo outer marked order hnew hin hadmits ih hframes hmarked
    have hframes' : ((inside ((target, g.next target) :: (node, todo) :: outer)).map
        rule.key).Nodup := by
      rw [inside_cons, List.map_cons, List.nodup_cons]
      refine ⟨?_, hframes⟩
      intro hkey
      obtain ⟨x, hx, hxkey⟩ := List.mem_map.mp hkey
      exact hnew (hxkey ▸ hmarked x hx)
    have hmarked' : ∀ x ∈ inside ((target, g.next target) :: (node, todo) :: outer),
        rule.key x ∈ rule.key target :: marked := by
      intro x hx
      rcases List.mem_cons.mp hx with rfl | hx
      · exact List.mem_cons_self
      · exact List.mem_cons_of_mem _ (hmarked x hx)
    obtain ⟨hmem, hnodup⟩ := ih hframes' hmarked'
    refine ⟨?_, hnodup⟩
    intro x hx
    rcases hmem x hx with hx | ⟨hx, hxin, hxadmits⟩
    · rcases List.mem_cons.mp hx with rfl | hx
      · exact .inr ⟨hnew, hin, hadmits⟩
      · exact .inl hx
    · exact .inr ⟨fun h => hx (List.mem_cons_of_mem _ h), hxin, hxadmits⟩

theorem inside_subset_finished : inside frames ⊆ finished (g.stepsFrom rule frames marked) := by
  refine g.finished_induction rule (P := fun frames _ order => inside frames ⊆ order)
    ?_ ?_ ?_ ?_ frames marked
  · simp
  · intro node outer marked order ih
    exact List.cons_subset_cons node ih
  · intro node target todo outer marked order _ ih
    exact ih
  · intro node target todo outer marked order _ _ _ ih
    exact List.subset_of_cons_subset ih

/-- The nodes left by a walk from a start: the start is among them, the others are such as may be
entered, and none is left twice. -/
theorem finished_steps (start : α) :
    start ∈ finished (g.steps rule start) ∧
    (∀ x ∈ finished (g.steps rule start), x = start ∨ (x ∈ g.nodes ∧ rule.admits x = true)) ∧
    ((finished (g.steps rule start)).map rule.key).Nodup := by
  have hmem := inside_subset_finished g rule [(start, g.next start)] [rule.key start]
  have hall := finished_mem_and_nodup g rule [(start, g.next start)] [rule.key start]
    (by simp) (by simp)
  refine ⟨hmem (by simp), ?_, hall.2⟩
  intro x hx
  rcases hall.1 x hx with hx | ⟨-, hx⟩
  · exact .inl (by simpa using hx)
  · exact .inr hx

theorem finished_kind {kind : α → Prop} (htarget : ∀ x y, g.Edge x y → kind y) {start : α}
    (hstart : kind start) : ∀ x ∈ finished (g.steps rule start), kind x := by
  have hall : (∀ frame ∈ [(start, g.next start)], kind frame.1 ∧ ∀ y ∈ frame.2, kind y) →
      ∀ x ∈ finished (g.steps rule start), kind x := by
    refine g.finished_induction rule (P := fun frames _ order =>
      (∀ frame ∈ frames, kind frame.1 ∧ ∀ y ∈ frame.2, kind y) → ∀ x ∈ order, kind x)
      ?_ ?_ ?_ ?_ _ _
    · intro marked _ x hx
      exact absurd hx List.not_mem_nil
    · intro node outer marked order ih hframes x hx
      rw [List.forall_mem_cons] at hframes
      rcases List.mem_cons.mp hx with rfl | hx
      · exact hframes.1.1
      · exact ih hframes.2 x hx
    · intro node target todo outer marked order _ ih hframes
      simp only [List.forall_mem_cons] at hframes ih
      exact ih ⟨⟨hframes.1.1, hframes.1.2.2⟩, hframes.2⟩
    · intro node target todo outer marked order _ _ _ ih hframes
      simp only [List.forall_mem_cons] at hframes ih
      exact ih ⟨⟨hframes.1.2.1, htarget target⟩, ⟨hframes.1.1, hframes.1.2.2⟩, hframes.2⟩
  exact hall (by simpa using ⟨hstart, htarget start⟩)

/-- A node comes after what its edges lead to, as far as that is entered at all and as far as the
bound lets the walk go; where it does not, the edge leads back. -/
theorem mem_left_or_back {kind : α → Prop} (hapart : g.KeysApart rule kind)
    (hwithin : g.WalksWithin rule.limit) (frames : List (α × List α)) (marked : List κ)
    (left : List α) (hstanding : Standing g rule kind frames marked left) (before : List α) (u : α)
    (after : List α) (heq : finished (g.stepsFrom rule frames marked) = before ++ u :: after)
    (v : α) (hedge : g.Edge u v) (hin : v ∈ g.nodes) (hadmits : rule.admits v = true) :
    v ∈ left ++ before ∨ v ∈ u :: after ∧ Relation.ReflTransGen (g.Entry rule) v u := by
  revert left before
  refine (g.finished_induction rule (P := fun frames marked order => inside frames ⊆ order ∧
    ∀ left, Standing g rule kind frames marked left → ∀ before, order = before ++ u :: after →
    v ∈ left ++ before ∨ v ∈ u :: after ∧ Relation.ReflTransGen (g.Entry rule) v u)
    ?_ ?_ ?_ ?_ frames marked).2
  · intro marked
    exact ⟨List.nil_subset _, fun left _ before heq => absurd heq (by simp)⟩
  · rintro node outer marked order ⟨hsubset, ih⟩
    refine ⟨List.cons_subset_cons node hsubset, fun left hstanding before heq => ?_⟩
    rcases before with _ | ⟨first, before⟩
    · obtain ⟨rfl, rfl⟩ := List.cons.inj heq
      rcases hstanding.looked _ List.mem_cons_self v hedge hin hadmits with hv | hv | hv
      · exact absurd hv List.not_mem_nil
      · exact .inl (List.mem_append_left _ hv)
      · exact .inr ⟨List.cons_subset_cons node hsubset hv,
          reflTransGen_of_isChain hstanding.chain hv⟩
    · obtain ⟨rfl, horder⟩ := List.cons.inj heq
      have hrest := ih (left ++ [node]) hstanding.leave before horder
      simpa only [List.append_assoc, List.cons_append, List.nil_append] using hrest
  · rintro node target todo outer marked order hskip ⟨hsubset, ih⟩
    refine ⟨hsubset, fun left hstanding => ih left (hstanding.skip hapart ?_)⟩
    rcases hskip with hskip | hskip | ⟨hpos, hdeep⟩
    · exact .inl hskip
    · exact .inr hskip
    · rcases hwithin with hzero | hlength
      · omega
      · have hnode := hstanding.todo _ List.mem_cons_self
        have hle := hlength (target :: node :: inside outer)
          (List.isChain_cons_cons.mpr ⟨hnode List.mem_cons_self,
            hstanding.chain.imp fun _ _ hentry => hentry.1⟩)
        simp only [List.length_cons, inside, List.length_map] at hle
        omega
  · rintro node target todo outer marked order _ _ henter ⟨hsubset, ih⟩
    exact ⟨List.subset_of_cons_subset hsubset, fun left hstanding =>
      ih left (hstanding.enter hapart henter)⟩

/-- In the walk from a start, a node comes after what its edges lead to, as far as that may be
entered, unless the edge leads back. -/
theorem mem_before_or_back {kind : α → Prop} (hapart : g.KeysApart rule kind)
    (hwithin : g.WalksWithin rule.limit) {start : α} (hstart : kind start) {before : List α} {u : α}
    {after : List α} (heq : finished (g.steps rule start) = before ++ u :: after) {v : α}
    (hedge : g.Edge u v) (hin : v ∈ g.nodes) (hadmits : rule.admits v = true) :
    v ∈ before ∨ v ∈ u :: after ∧ Relation.ReflTransGen (g.Entry rule) v u := by
  simpa using g.mem_left_or_back rule hapart hwithin _ _ [] (.start hapart hstart) before u after
    heq v hedge hin hadmits

end Graph

end SymbolAtlas
