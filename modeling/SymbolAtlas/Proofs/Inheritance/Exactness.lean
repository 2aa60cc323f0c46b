import Mathlib.Data.Nat.Find
import Mathlib.Order.Bounds.Basic
import SymbolAtlas.Proofs.Inheritance.Duality

/-!
# What the searches compute

Each search through the bases answers a question about all chains of edges, of which there may be
infinitely many: whether there is one, how long a shortest one is, and what the most generous one
leaves of a protection. The distance is exact under every bound. The other two are exact without a
bound, whether or not the edges go round in circles, and so is the search through derived classes and
their instances for one that is documented.
-/

set_option autoImplicit false

namespace SymbolAtlas

/-! ## Protections along edges -/

namespace Protection

theorem rank_injective : Function.Injective rank := by
  intro p q h
  cases p <;> cases q <;> first | rfl | cases h

theorem rank_wider (p q : Protection) : (p.wider q).rank = min p.rank q.rank := by
  unfold wider
  split <;> omega

theorem wider_eq_or_eq (p q : Protection) : p.wider q = p ∨ p.wider q = q := by
  unfold wider
  split
  · exact .inl rfl
  · exact .inr rfl

theorem rank_le_rank_cappedBy (p edge : Protection) : p.rank ≤ (p.cappedBy edge).rank := by
  cases p <;> cases edge <;> decide

/-- What remains of a protection at the end of a chain of edges. -/
def cappedAlong (p : Protection) (edges : List BaseEdge) : Protection :=
  edges.foldl (fun q edge => q.cappedBy edge.protection) p

theorem cappedAlong_concat (p : Protection) (edges : List BaseEdge) (edge : BaseEdge) :
    p.cappedAlong (edges ++ [edge]) = (p.cappedAlong edges).cappedBy edge.protection := by
  simp [cappedAlong]

theorem rank_le_rank_cappedAlong (p : Protection) (edges : List BaseEdge) :
    p.rank ≤ (p.cappedAlong edges).rank := by
  induction edges generalizing p with
  | nil => exact Nat.le_refl _
  | cons edge edges ih => exact Nat.le_trans (p.rank_le_rank_cappedBy edge.protection) (ih _)

end Protection

namespace Atlas

open SymbolAtlas.Graph

variable {a : Atlas} {derived base : EntityId} {p : Protection}

/-! ## Reaching -/

/-- A step from a class to what one of its base edges leads to. Where `followInstances` is off, the
template takes the place of an instance. -/
def StepsUp (a : Atlas) (followInstances : Bool) (x y : EntityId) : Prop :=
  ∃ edge ∈ a.bases x, (if followInstances then edge.target else a.genericOf edge.target) = y

/-- A step from a class to one that is listed as derived from it. -/
def StepsDown (a : Atlas) (x y : EntityId) : Prop :=
  ∃ edge ∈ a.derived x, edge.target = y

theorem edge_baseGraph (a : Atlas) (followInstances : Bool) :
    (a.baseGraph followInstances).Edge = a.StepsUp followInstances := by
  funext x y
  simp [Graph.Edge, baseGraph, StepsUp, genericOf]

theorem edge_derivedGraph (a : Atlas) : a.derivedGraph.Edge = a.StepsDown := by
  funext x y
  exact propext (a.derivedGraph_edge_iff x y)

/-- Without a bound, a class is found as a base exactly if one step up or more lead to it, and as a
derived class exactly if one step down or more do. In either graph the search is over after as many
steps as there are edges to look at and classes to enter and to leave. -/
theorem isBase_and_isDerived_iff (a : Atlas) (hbound : a.options.maxInheritanceDepth = 0) :
    (∀ followInstances derived base, (a.isBase derived base followInstances).value = true ↔
      Relation.TransGen (a.StepsUp followInstances) derived base) ∧
    (∀ base derived, (a.isDerived base derived).value = true ↔
      Relation.TransGen a.StepsDown base derived) ∧
    (∀ followInstances start, ((a.baseGraph followInstances).steps
      { key := id, limit := a.options.maxInheritanceDepth } start).length ≤
        (a.baseGraph followInstances).stepBound) ∧
    ∀ start, (a.derivedGraph.steps
      { key := id, limit := a.options.maxInheritanceDepth } start).length ≤
        a.derivedGraph.stepBound := by
  refine ⟨fun followInstances derived base => ?_, fun base derived => ?_,
    fun followInstances start => ?_, fun start => ?_⟩
  · rw [isBase, reaches_iff (a.isRooted_and_isClosed_baseGraph followInstances).1 hbound,
      ← transGen_edge_iff, edge_baseGraph]
  · rw [isDerived, reaches_iff a.isRooted_derivedGraph hbound, ← transGen_edge_iff,
      edge_derivedGraph]
  · exact length_steps_le (a.isRooted_and_isClosed_baseGraph followInstances).1 _ start
  · exact length_steps_le a.isRooted_derivedGraph _ start

/-- Three classes in a circle, with a private way from the first to the third besides, and an instance
of a template that the second is derived from as well. -/
def roundabout : Atlas :=
  let a := ((empty { maxInheritanceDepth := 0 }).naming "First").naming "Second"
  let a := ((a.naming "Third").naming "Box").naming "Box< int >"
  let a := a.modifyClass ⟨5⟩ fun c => { c with templateMaster := some ⟨4⟩ }
  let a := (a.linkBase ⟨1⟩ { target := ⟨3⟩, protection := .priv }).value
  let a := (a.linkBase ⟨1⟩ { target := ⟨2⟩, protection := .prot }).value
  let a := (a.linkBase ⟨2⟩ { target := ⟨3⟩ }).value
  let a := (a.linkBase ⟨3⟩ { target := ⟨1⟩ }).value
  (a.linkBase ⟨2⟩ { target := ⟨5⟩ }).value

theorem isBase_and_isDerived_iff_roundabout :
    Relation.TransGen (roundabout.StepsUp true) ⟨1⟩ ⟨1⟩ ∧
      Relation.TransGen (roundabout.StepsUp true) ⟨3⟩ ⟨5⟩ ∧
      ¬ Relation.TransGen (roundabout.StepsUp true) ⟨3⟩ ⟨4⟩ ∧
      Relation.TransGen (roundabout.StepsUp false) ⟨3⟩ ⟨4⟩ ∧
      ¬ Relation.TransGen (roundabout.StepsUp false) ⟨3⟩ ⟨5⟩ ∧
      Relation.TransGen roundabout.StepsDown ⟨5⟩ ⟨3⟩ ∧
      ¬ Relation.TransGen roundabout.StepsDown ⟨5⟩ ⟨5⟩ := by
  obtain ⟨hup, hdown, -⟩ := isBase_and_isDerived_iff roundabout (by decide)
  simp only [← hup, ← hdown]
  decide +kernel

/-! ## Distance -/

/-- How many edges the chains from a class to another one have. -/
def chainLengths (a : Atlas) (start goal : EntityId) : Set Nat :=
  { length | ∃ edges, a.BaseChain start edges goal ∧ edges.length = length }

theorem mem_chainLengths_iff {start goal : EntityId} {length : Nat} :
    length ∈ a.chainLengths start goal ↔ (a.baseGraph true).Walk start length goal := by
  constructor
  · rintro ⟨edges, hchain, rfl⟩
    exact hchain.walk
  · exact exists_baseChain_of_walk

/-- Under every bound, the distance of a class is the least number of edges on a chain to it, or to
the class that it extends, if that number is within the bound. Otherwise it has none. -/
theorem distance_isLeast (a : Atlas) (start target : EntityId) :
    let goal := (a.categoryOf target).getD target
    (∀ length, (a.distance start target).value = some length ↔
      IsLeast (a.chainLengths start goal) length ∧
        (a.options.maxInheritanceDepth = 0 ∨ length ≤ a.options.maxInheritanceDepth)) ∧
    ((a.distance start target).value = none ↔
      ¬ ∃ length ∈ a.chainLengths start goal,
        a.options.maxInheritanceDepth = 0 ∨ length ≤ a.options.maxInheritanceDepth) := by
  intro goal
  obtain ⟨hrooted, hclosed⟩ := a.isRooted_and_isClosed_baseGraph true
  have hsome (length : Nat) : (a.distance start target).value = some length ↔
      IsLeast (a.chainLengths start goal) length ∧
        IsWithin a.options.maxInheritanceDepth length := by
    rw [value_distance, find?_trail_oldestFirst_eq_some_iff hrooted hclosed, ← and_assoc]
    simp only [← mem_chainLengths_iff]
    rfl
  refine ⟨hsome, ?_⟩
  rw [← not_iff_not, not_not, ← ne_eq, Option.ne_none_iff_exists']
  constructor
  · rintro ⟨length, hlength⟩
    obtain ⟨⟨hmem, -⟩, hwithin⟩ := (hsome length).mp hlength
    exact ⟨length, hmem, hwithin⟩
  · rintro ⟨length, hmem, hwithin⟩
    -- of the lengths there is a least one, which is within the bound all the more
    classical
    have hex : ∃ length, length ∈ a.chainLengths start goal := ⟨length, hmem⟩
    have hleast : IsLeast (a.chainLengths start goal) (Nat.find hex) :=
      ⟨Nat.find_spec hex, fun _ => Nat.find_min' hex⟩
    have hle := hleast.2 hmem
    exact ⟨_, (hsome _).mpr ⟨hleast, hwithin.imp_right (Nat.le_trans hle)⟩⟩

/-! ## Protection -/

theorem foldl_widest_some (arrivals : List Protection) (best : Protection) :
    ∃ q ∈ best :: arrivals, arrivals.foldl widest (some best) = some q ∧
      ∀ r ∈ best :: arrivals, q.rank ≤ r.rank := by
  induction arrivals generalizing best with
  | nil => exact ⟨best, List.mem_cons_self, rfl, by simp⟩
  | cons p rest ih =>
    obtain ⟨q, hmem, hfold, hleast⟩ := ih (best.wider p)
    have hrank := hleast _ List.mem_cons_self
    rw [Protection.rank_wider] at hrank
    refine ⟨q, ?_, hfold, ?_⟩
    · rcases List.mem_cons.mp hmem with rfl | hmem
      · rcases best.wider_eq_or_eq p with heq | heq <;> simp [heq]
      · simp [hmem]
    · simp only [List.forall_mem_cons] at hleast ⊢
      exact ⟨by omega, by omega, hleast.2⟩

theorem foldl_widest_eq_some_iff (arrivals : List Protection) (q : Protection) :
    arrivals.foldl widest none = some q ↔ q ∈ arrivals ∧ ∀ r ∈ arrivals, q.rank ≤ r.rank := by
  rcases arrivals with _ | ⟨first, rest⟩
  · simp
  · obtain ⟨q', hmem, hfold, hleast⟩ := foldl_widest_some rest first
    have hfold' : (first :: rest).foldl widest none = some q' := hfold
    rw [hfold', Option.some.injEq]
    constructor
    · rintro rfl
      exact ⟨hmem, hleast⟩
    · rintro ⟨hmem', hleast'⟩
      exact Protection.rank_injective (Nat.le_antisymm (hleast q hmem') (hleast' q' hmem))

/-- What remains of a protection at the end of a walk that enters a class with its last edge only. -/
def RemainsAt (a : Atlas) (derived base : EntityId) (p q : Protection) : Prop :=
  ∃ length x, (a.cappingGraph base).Walk (derived, p) length x ∧
    ∃ edge ∈ a.bases x.1, edge.target = base ∧ x.2.cappedBy edge.protection = q

theorem remainsAt_iff_mem_trail (hbound : a.options.maxInheritanceDepth = 0) (q : Protection) :
    a.RemainsAt derived base p q ↔ ∃ visit ∈ (a.cappingGraph base).trail .newestFirst
      a.options.maxInheritanceDepth (derived, p), ∃ edge ∈ a.bases visit.1.1,
        edge.target = base ∧ visit.1.2.cappedBy edge.protection = q := by
  constructor
  · rintro ⟨length, x, hwalk, edge, hedge, hlast⟩
    obtain ⟨depth, hvisit⟩ := mem_trail_of_walk (a.isRooted_cappingGraph base)
      (fun _ _ _ => .inl hbound) .newestFirst hwalk (mem_nodes_cappingGraph base x.2 hedge)
    exact ⟨(x, depth), hvisit, edge, hedge, hlast⟩
  · rintro ⟨⟨x, depth⟩, hvisit, hlast⟩
    exact ⟨depth, x, (walk_of_mem_trail hvisit).1, hlast⟩

theorem inheritedProtection?_eq_some_iff (hbound : a.options.maxInheritanceDepth = 0)
    (hne : derived ≠ base) (p q : Protection) :
    a.inheritedProtection? derived base p = some q ↔
      a.RemainsAt derived base p q ∧ ∀ r, a.RemainsAt derived base p r → q.rank ≤ r.rank := by
  have hlimit (depth : Nat) : a.isAtLimit depth = false :=
    (a.isAtLimit_eq_false_iff depth).mpr (.inl hbound)
  unfold inheritedProtection?
  rw [if_neg hne, foldl_widest_eq_some_iff]
  simp only [remainsAt_iff_mem_trail hbound, List.mem_flatMap, List.mem_filter, List.mem_map, hlimit,
    Bool.not_false, and_true, beq_iff_eq, and_assoc]

theorem exists_baseChain_of_walk_cappingGraph {length : Nat} {x : EntityId × Protection}
    (h : (a.cappingGraph base).Walk (derived, p) length x) :
    ∃ edges, a.BaseChain derived edges x.1 ∧ p.cappedAlong edges = x.2 := by
  induction h with
  | refl => exact ⟨[], .nil _, rfl⟩
  | tail _ hedge ih =>
    obtain ⟨edges, hchain, hcapped⟩ := ih
    obtain ⟨edge, hmem, -, rfl⟩ := (a.cappingGraph_edge_iff base _ _).mp hedge
    refine ⟨edges ++ [edge], hchain.append (.cons hmem (.nil _)), ?_⟩
    rw [Protection.cappedAlong_concat, hcapped]

theorem RemainsAt.exists_baseChain {q : Protection} (h : a.RemainsAt derived base p q) :
    ∃ edges, a.BaseChain derived edges base ∧ p.cappedAlong edges = q := by
  obtain ⟨length, x, hwalk, edge, hmem, rfl, rfl⟩ := h
  obtain ⟨edges, hchain, hcapped⟩ := exists_baseChain_of_walk_cappingGraph hwalk
  refine ⟨edges ++ [edge], hchain.append (.cons hmem (.nil _)), ?_⟩
  rw [Protection.cappedAlong_concat, hcapped]

/-- A chain may be cut off where it enters the class first, and leaves no less of a protection
there than at its end. -/
theorem BaseChain.exists_remainsAt {edges : List BaseEdge} (h : a.BaseChain derived edges base)
    (hne : derived ≠ base) (p : Protection) :
    ∃ q, a.RemainsAt derived base p q ∧ q.rank ≤ (p.cappedAlong edges).rank := by
  induction h generalizing p with
  | nil => exact absurd rfl hne
  | @cons id base edge edges hedge rest ih =>
    by_cases htarget : edge.target = base
    · exact ⟨_, ⟨0, _, .refl, edge, hedge, htarget, rfl⟩,
        Protection.rank_le_rank_cappedAlong _ edges⟩
    · obtain ⟨q, ⟨length, x, hwalk, hlast⟩, hrank⟩ := ih htarget (p.cappedBy edge.protection)
      have hfirst := (a.cappingGraph_edge_iff base (id, p) _).mpr ⟨edge, hedge, htarget, rfl⟩
      exact ⟨q, ⟨length + 1, x, hwalk.head hfirst, hlast⟩, hrank⟩

/-- Without a bound, nothing remains of a protection at another class exactly if no chain of base
edges leads there. Otherwise there remains the widest of what the chains leave of it, of whatever
length they are. -/
theorem inheritedProtection_isWidest (a : Atlas) (derived base : EntityId) (p : Protection)
    (hbound : a.options.maxInheritanceDepth = 0) (hne : derived ≠ base) :
    (a.inheritedProtection? derived base p = none ↔ ¬ ∃ edges, a.BaseChain derived edges base) ∧
    ∀ q, a.inheritedProtection? derived base p = some q ↔
      (∃ edges, a.BaseChain derived edges base ∧ p.cappedAlong edges = q) ∧
        ∀ edges, a.BaseChain derived edges base → q.rank ≤ (p.cappedAlong edges).rank := by
  constructor
  · rw [← Option.not_isSome_iff_eq_none, not_iff_not]
    constructor
    · intro hsome
      obtain ⟨edges, hchain, -⟩ := exists_baseChain_of_inheritedProtection? hne hsome
      exact ⟨edges, hchain⟩
    · rintro ⟨edges, hchain⟩
      have hwithin : a.ChainsWithin derived := fun _ _ _ => .inl hbound
      exact hwithin.isSome_inheritedProtection? hne hchain p
  · intro q
    rw [inheritedProtection?_eq_some_iff hbound hne]
    constructor
    · rintro ⟨hremains, hleast⟩
      refine ⟨hremains.exists_baseChain, fun edges hchain => ?_⟩
      obtain ⟨r, hr, hrank⟩ := hchain.exists_remainsAt hne p
      exact Nat.le_trans (hleast r hr) hrank
    · rintro ⟨⟨edges, hchain, rfl⟩, hleast⟩
      have hleast' : ∀ r, a.RemainsAt derived base p r →
          (p.cappedAlong edges).rank ≤ r.rank := by
        intro r hr
        obtain ⟨edges', hchain', rfl⟩ := hr.exists_baseChain
        exact hleast edges' hchain'
      -- the part of the chain up to the class leaves no less, and so just as much
      obtain ⟨r, hr, hrank⟩ := hchain.exists_remainsAt hne p
      obtain rfl := Protection.rank_injective (Nat.le_antisymm hrank (hleast' r hr))
      exact ⟨hr, hleast'⟩

/-- Of a private edge and a longer way with a protected one, the longer way counts, however often
one goes round the circle before. -/
theorem inheritedProtection_isWidest_roundabout :
    roundabout.inheritedProtection? ⟨1⟩ ⟨3⟩ .pub = some .prot ∧
      (∃ edges, roundabout.BaseChain ⟨1⟩ edges ⟨3⟩ ∧ Protection.pub.cappedAlong edges = .prot) ∧
      (∀ edges, roundabout.BaseChain ⟨1⟩ edges ⟨3⟩ →
        1 ≤ (Protection.pub.cappedAlong edges).rank) ∧
      ¬ ∃ edges, roundabout.BaseChain ⟨1⟩ edges ⟨4⟩ := by
  have hsome : roundabout.inheritedProtection? ⟨1⟩ ⟨3⟩ .pub = some .prot := by decide +kernel
  have hnone : roundabout.inheritedProtection? ⟨1⟩ ⟨4⟩ .pub = none := by decide +kernel
  obtain ⟨-, hwidest⟩ := inheritedProtection_isWidest roundabout ⟨1⟩ ⟨3⟩ .pub (by decide) (by decide)
  obtain ⟨hchains, -⟩ := inheritedProtection_isWidest roundabout ⟨1⟩ ⟨4⟩ .pub (by decide) (by decide)
  exact ⟨hsome, ((hwidest _).mp hsome).1, ((hwidest _).mp hsome).2, hchains.mp hnone⟩

/-! ## Hierarchies -/

/-- A step from a class to one that is listed as derived from it, or to an instance of that one. -/
def StepsIntoHierarchy (a : Atlas) (x y : EntityId) : Prop :=
  ∃ edge ∈ a.derived x, y = edge.target ∨ ∃ key, (key, y) ∈ a.instances edge.target

theorem edge_hierarchyGraph (a : Atlas) : a.hierarchyGraph.Edge = a.StepsIntoHierarchy := by
  funext x y
  simp [Graph.Edge, hierarchyGraph, StepsIntoHierarchy]

theorem isRooted_hierarchyGraph (a : Atlas) : a.hierarchyGraph.IsRooted := by
  intro x y hedge
  rw [edge_hierarchyGraph] at hedge
  obtain ⟨edge, hmem, -⟩ := hedge
  exact mem_entityNumbers_of_mem_derived hmem

theorem value_findsDocumented (hbound : a.options.maxInheritanceDepth = 0)
    (visits : List (EntityId × Nat)) :
    (a.findsDocumented visits).value = visits.any fun visit => a.isDocumentedHere visit.1 := by
  induction visits with
  | nil => rfl
  | cons visit rest ih =>
    obtain ⟨x, depth⟩ := visit
    have hlimit : a.isAtLimit depth = false := (a.isAtLimit_eq_false_iff depth).mpr (.inl hbound)
    rw [findsDocumented, List.any_cons, ← ih]
    cases hx : a.isDocumentedHere x with
    | true => rfl
    | false =>
      cases a.derived x with
      | nil => rfl
      | cons edge edges => simp [hlimit]

theorem isDocumentedHere_iff {x : EntityId} :
    a.isDocumentedHere x = true ↔ (∃ e, a.entity? x = some e ∧ e.isReference = false ∧
      e.flags.isHidden = false) ∧ a.isLinkableHere x = true := by
  simp [isDocumentedHere, Option.any_eq_true]

/-- Without a bound, a documented descendant is found exactly if steps into the hierarchy, none or
more, lead to an entity that is no reference, is not hidden and is linkable here. The search is over
when each entity has been visited once. -/
theorem hasDocumentedDescendant_iff (a : Atlas) (id : EntityId)
    (hbound : a.options.maxInheritanceDepth = 0) :
    ((a.hasDocumentedDescendant id).value = true ↔
      ∃ x, Relation.ReflTransGen a.StepsIntoHierarchy id x ∧
        (∃ e, a.entity? x = some e ∧ e.isReference = false ∧ e.flags.isHidden = false) ∧
        a.isLinkableHere x = true) ∧
    (a.hierarchyGraph.trail .newestFirst a.options.maxInheritanceDepth id).length ≤
      a.entityNumbers.length + 1 := by
  refine ⟨?_, length_trail_le _ _ _ _⟩
  rw [hasDocumentedDescendant, value_findsDocumented hbound, List.any_eq_true, ← edge_hierarchyGraph]
  simp only [← isDocumentedHere_iff, reflTransGen_edge_iff]
  constructor
  · rintro ⟨⟨x, depth⟩, hvisit, hx⟩
    exact ⟨x, ⟨depth, (walk_of_mem_trail hvisit).1⟩, hx⟩
  · rintro ⟨x, ⟨length, hwalk⟩, hx⟩
    obtain ⟨⟨e, he, -⟩, -⟩ := isDocumentedHere_iff.mp hx
    obtain ⟨depth, hvisit⟩ := mem_trail_of_walk a.isRooted_hierarchyGraph (fun _ _ _ => .inl hbound)
      .newestFirst hwalk (mem_entityNumbers_of_entity? he)
    exact ⟨(x, depth), hvisit, hx⟩

/-- The circle with an instance of the second class, all hidden but the template of the instance. -/
def veiledRoundabout : Atlas :=
  let a := [1, 2, 3].foldl (fun a n => a.modifyEntity ⟨n⟩ fun e => { e with flags.isHidden := true })
    roundabout
  a.modifyClass ⟨2⟩ fun c => { c with instances := c.instances.insert "< int >" ⟨5⟩ }

/-- From the third class one comes to the instance of the second one, which has the page of its
template. -/
theorem hasDocumentedDescendant_iff_roundabout :
    (∃ x, Relation.ReflTransGen veiledRoundabout.StepsIntoHierarchy ⟨3⟩ x ∧
      veiledRoundabout.isLinkableHere x = true) ∧
      (veiledRoundabout.hasDocumentedDescendant ⟨3⟩).value = true := by
  have hfound : (veiledRoundabout.hasDocumentedDescendant ⟨3⟩).value = true := by decide +kernel
  obtain ⟨x, hreach, -, hlinkable⟩ := (hasDocumentedDescendant_iff _ ⟨3⟩ rfl).1.mp hfound
  exact ⟨⟨x, hreach, hlinkable⟩, hfound⟩

end Atlas

end SymbolAtlas
