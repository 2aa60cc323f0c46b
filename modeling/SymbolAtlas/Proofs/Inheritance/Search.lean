import SymbolAtlas.Proofs.Graph.Coverage
import SymbolAtlas.Proofs.Inheritance.Recursion

/-!
# Searching for a base

Whether a class is a base of another one, how far away it is and what remains of a protection there
are found by three searches, each with its own marks and its own place for the bound on inheritance
depth. The distance is exact. The others find nothing that chains of base edges do not lead to, and
find it all where no chain from the derived class exceeds the bound; there the three agree.
-/

set_option autoImplicit false

namespace SymbolAtlas.Atlas

open SymbolAtlas.Graph

variable {a : Atlas} {derived base : EntityId}
variable {edges : List BaseEdge} {length : Nat} {p : Protection} {x : EntityId}

/-! ## Chains as walks -/

theorem BaseChain.walk (h : a.BaseChain derived edges base) :
    (a.baseGraph true).Walk derived edges.length base := by
  induction h with
  | nil id => exact .refl
  | cons hedge _ ih => exact ih.head ((a.baseGraph_edge_iff _ _).mpr ⟨_, hedge, rfl⟩)

theorem exists_baseChain_of_walk (h : (a.baseGraph true).Walk derived length x) :
    ∃ edges, a.BaseChain derived edges x ∧ edges.length = length := by
  induction h with
  | refl => exact ⟨[], .nil _, rfl⟩
  | tail _ hedge ih =>
    obtain ⟨edges, hchain, hlength⟩ := ih
    obtain ⟨edge, hmem, rfl⟩ := (a.baseGraph_edge_iff _ _).mp hedge
    exact ⟨edges ++ [edge], hchain.append (.cons hmem (.nil _)), by simp [hlength]⟩

theorem mem_entityNumbers_of_mem_bases {id : EntityId} {edge : BaseEdge} (h : edge ∈ a.bases id) :
    id ∈ a.entityNumbers := by
  have hlt := BaseChain.slot_lt_of_mem_bases h
  exact mem_entityNumbers_of_entity? (Array.getElem?_eq_getElem hlt)

theorem isRooted_and_isClosed_baseGraph (a : Atlas) (followInstances : Bool) :
    (a.baseGraph followInstances).IsRooted ∧ (a.baseGraph followInstances).IsClosed := by
  refine isRooted_and_isClosed_spanning fun x y hedge => ?_
  obtain ⟨edge, hmem, -⟩ := List.mem_map.mp hedge
  exact mem_entityNumbers_of_mem_bases hmem

theorem isRooted_baseGraph (a : Atlas) : (a.baseGraph true).IsRooted :=
  (a.isRooted_and_isClosed_baseGraph true).1

/-- No chain of base edges from a class is longer than the bound, where there is one. -/
def ChainsWithin (a : Atlas) (derived : EntityId) : Prop :=
  ∀ edges base, a.BaseChain derived edges base →
    IsWithin a.options.maxInheritanceDepth edges.length

theorem ChainsWithin.walksFromWithin (h : a.ChainsWithin derived) :
    (a.baseGraph true).WalksFromWithin a.options.maxInheritanceDepth derived := by
  intro length x hwalk
  obtain ⟨edges, hchain, rfl⟩ := exists_baseChain_of_walk hwalk
  exact h edges x hchain

theorem isAtLimit_eq_false_iff (a : Atlas) (depth : Nat) :
    a.isAtLimit depth = false ↔ IsWithin a.options.maxInheritanceDepth (depth + 1) := by
  rw [← not_iff_not, not_isWithin_iff]
  simp [isAtLimit]

/-! ## Distance -/

theorem value_distance (a : Atlas) (derived base : EntityId) :
    (a.distance derived base).value = (((a.baseGraph true).trail .oldestFirst
      a.options.maxInheritanceDepth derived).find? fun visit =>
        visit.1 == a.extendedClass base).map (·.2) := by
  unfold distance
  dsimp only
  split <;> rfl

theorem isSome_distance_iff_mem_trail (a : Atlas) (derived base : EntityId) :
    (a.distance derived base).value.isSome ↔ ∃ depth, (a.extendedClass base, depth) ∈
      (a.baseGraph true).trail .oldestFirst a.options.maxInheritanceDepth derived := by
  rw [value_distance, Option.isSome_map]
  simp

theorem isSome_distance_iff {c : ClassBody} (hbase : a.class? base = some c)
    (hcategory : c.categoryOf = none) :
    (a.distance derived base).value.isSome ↔ ∃ edges, a.BaseChain derived edges base ∧
      IsWithin a.options.maxInheritanceDepth edges.length := by
  have hself : a.extendedClass base = base := by simp [extendedClass, hbase, hcategory]
  rw [isSome_distance_iff_mem_trail, hself]
  constructor
  · rintro ⟨depth, hvisit⟩
    obtain ⟨hwalk, hwithin⟩ := walk_of_mem_trail hvisit
    obtain ⟨edges, hchain, rfl⟩ := exists_baseChain_of_walk hwalk
    exact ⟨edges, hchain, hwithin⟩
  · rintro ⟨edges, hchain, hwithin⟩
    obtain ⟨e, he, -⟩ := (a.class?_eq_some_iff base c).mp hbase
    obtain ⟨depth, -, hvisit⟩ := mem_trail_oldestFirst_of_walk a.isRooted_baseGraph hchain.walk
      hwithin (mem_nodes_spanning (mem_entityNumbers_of_entity? he) _)
    exact ⟨depth, hvisit⟩

/-! ## Protection -/

theorem cappingGraph_edge_iff (a : Atlas) (base : EntityId) (x y : EntityId × Protection) :
    (a.cappingGraph base).Edge x y ↔ ∃ edge ∈ a.bases x.1, edge.target ≠ base ∧
      (edge.target, x.2.cappedBy edge.protection) = y := by
  unfold Graph.Edge cappingGraph
  simp [and_assoc]

theorem mem_nodes_cappingGraph (base : EntityId) (p : Protection) {edge : BaseEdge}
    (h : edge ∈ a.bases x) : (x, p) ∈ (a.cappingGraph base).nodes := by
  refine List.mem_flatMap.mpr ⟨x, mem_entityNumbers_of_mem_bases h, ?_⟩
  exact List.mem_map_of_mem (Protection.mem_all p)

theorem isRooted_cappingGraph (a : Atlas) (base : EntityId) : (a.cappingGraph base).IsRooted := by
  rintro ⟨x, p⟩ y hedge
  obtain ⟨edge, hmem, -⟩ := (a.cappingGraph_edge_iff base _ y).mp hedge
  exact mem_nodes_cappingGraph base p hmem

theorem walk_of_walk_cappingGraph {x : EntityId × Protection}
    (h : (a.cappingGraph base).Walk (derived, p) length x) :
    (a.baseGraph true).Walk derived length x.1 := by
  induction h with
  | refl => exact .refl
  | tail _ hedge ih =>
    obtain ⟨edge, hmem, -, rfl⟩ := (a.cappingGraph_edge_iff base _ _).mp hedge
    exact ih.tail ((a.baseGraph_edge_iff _ _).mpr ⟨edge, hmem, rfl⟩)

/-- A walk along base edges caps a protection up to its end, or up to a class that is derived from
`base` if it gets there before. -/
theorem exists_walk_cappingGraph (h : (a.baseGraph true).Walk derived length x) (p : Protection) :
    (∃ length' q, (a.cappingGraph base).Walk (derived, p) length' (x, q)) ∨
    ∃ length' y, (a.cappingGraph base).Walk (derived, p) length' y ∧
      ∃ edge ∈ a.bases y.1, edge.target = base := by
  induction h with
  | refl => exact .inl ⟨0, p, .refl⟩
  | tail _ hedge ih =>
    rcases ih with ⟨length', q, hwalk⟩ | hfound
    · obtain ⟨edge, hmem, rfl⟩ := (a.baseGraph_edge_iff _ _).mp hedge
      by_cases heq : edge.target = base
      · exact .inr ⟨length', _, hwalk, edge, hmem, heq⟩
      · exact .inl ⟨_, _, hwalk.tail ((a.cappingGraph_edge_iff base _ _).mpr
          ⟨edge, hmem, heq, rfl⟩)⟩
    · exact .inr hfound

theorem ne_of_walk_cappingGraph (hne : derived ≠ base) {x : EntityId × Protection}
    (h : (a.cappingGraph base).Walk (derived, p) length x) : x.1 ≠ base := by
  cases h with
  | refl => exact hne
  | tail _ hedge =>
    obtain ⟨edge, -, htarget, rfl⟩ := (a.cappingGraph_edge_iff base _ _).mp hedge
    exact htarget

theorem isSome_foldl_widest (arrivals : List Protection) (best : Option Protection) :
    (arrivals.foldl widest best).isSome ↔ best.isSome ∨ arrivals ≠ [] := by
  induction arrivals generalizing best with
  | nil => simp
  | cons p rest ih =>
    rw [List.foldl_cons, ih]
    simp [widest]

/-- A protection is found if the search comes to a class with the base. -/
theorem isSome_inheritedProtection?_iff_mem_trail (hne : derived ≠ base) (p : Protection) :
    (a.inheritedProtection? derived base p).isSome ↔ ∃ x depth, (x, depth) ∈
      (a.cappingGraph base).trail .newestFirst a.options.maxInheritanceDepth (derived, p) ∧
      IsWithin a.options.maxInheritanceDepth (depth + 1) ∧
      ∃ edge ∈ a.bases x.1, edge.target = base := by
  unfold inheritedProtection?
  rw [if_neg hne, isSome_foldl_widest]
  simp only [Option.isSome_none, Bool.false_eq_true, false_or, ne_eq, List.flatMap_eq_nil_iff,
    List.map_eq_nil_iff, List.filter_eq_nil_iff, List.mem_filter, Bool.not_eq_true',
    isAtLimit_eq_false_iff, beq_iff_eq, Prod.forall, not_forall, not_not]
  grind

theorem exists_baseChain_of_inheritedProtection? (hne : derived ≠ base)
    (h : (a.inheritedProtection? derived base p).isSome) : ∃ edges, a.BaseChain derived edges base ∧
      IsWithin a.options.maxInheritanceDepth edges.length := by
  obtain ⟨x, depth, hvisit, hwithin, edge, hmem, rfl⟩ :=
    (isSome_inheritedProtection?_iff_mem_trail hne p).mp h
  obtain ⟨edges, hchain, hlength⟩ :=
    exists_baseChain_of_walk (walk_of_walk_cappingGraph (walk_of_mem_trail hvisit).1)
  refine ⟨edges ++ [edge], hchain.append (.cons hmem (.nil _)), ?_⟩
  rw [List.length_append, hlength]
  exact hwithin

theorem ChainsWithin.isSome_inheritedProtection? (h : a.ChainsWithin derived) (hne : derived ≠ base)
    (hchain : a.BaseChain derived edges base) (p : Protection) :
    (a.inheritedProtection? derived base p).isSome := by
  rw [isSome_inheritedProtection?_iff_mem_trail hne]
  have hbound : (a.cappingGraph base).WalksFromWithin a.options.maxInheritanceDepth (derived, p) :=
    fun length x hwalk => h.walksFromWithin length x.1 (walk_of_walk_cappingGraph hwalk)
  rcases exists_walk_cappingGraph hchain.walk p with ⟨length, q, hwalk⟩ | ⟨length, y, hwalk, hfound⟩
  · exact absurd rfl (ne_of_walk_cappingGraph hne hwalk)
  · obtain ⟨edge, hmem, htarget⟩ := hfound
    obtain ⟨depth, hvisit⟩ := mem_trail_of_walk (a.isRooted_cappingGraph base) hbound .newestFirst
      hwalk (mem_nodes_cappingGraph base y.2 hmem)
    have hwalk' := walk_of_walk_cappingGraph (walk_of_mem_trail hvisit).1
    have hlast := hwalk'.tail ((a.baseGraph_edge_iff _ _).mpr ⟨edge, hmem, htarget⟩)
    exact ⟨y, depth, hvisit, h.walksFromWithin _ _ hlast, edge, hmem, htarget⟩

/-! ## Reaching -/

theorem looksAt_of_meets {steps : List (Step EntityId)} (h : (a.meets base steps).value = true) :
    LooksAt steps base := by
  induction steps with
  | nil => cases h
  | cons step rest ih =>
    by_cases htarget : step.target? = some base
    · exact ⟨step, List.mem_cons_self, htarget⟩
    · have hrest : (a.meets base rest).value = true := by
        unfold meets at h
        rw [if_neg htarget] at h
        cases step with
        | tooDeep inside target => cases h
        | cycle source target | enter source target | pass source target | leave node => exact h
      obtain ⟨step', hmem, htarget'⟩ := ih hrest
      exact ⟨step', List.mem_cons_of_mem _ hmem, htarget'⟩

theorem meets_of_looksAt {steps : List (Step EntityId)} (hshallow : IsShallow steps)
    (h : LooksAt steps base) : (a.meets base steps).value = true := by
  induction steps with
  | nil =>
    obtain ⟨step, hmem, -⟩ := h
    cases hmem
  | cons step rest ih =>
    unfold meets
    split
    · rfl
    · next htarget =>
      obtain ⟨step', hmem, htarget'⟩ := h
      have hrest : LooksAt rest base := by
        rcases List.mem_cons.mp hmem with rfl | hmem
        · exact absurd htarget' htarget
        · exact ⟨step', hmem, htarget'⟩
      have hvalue := ih (fun x y hmem => hshallow x y (List.mem_cons_of_mem _ hmem)) hrest
      cases step with
      | tooDeep inside target => exact absurd List.mem_cons_self (hshallow inside target)
      | cycle source target | enter source target | pass source target | leave node => exact hvalue

theorem exists_baseChain_of_isBase (h : (a.isBase derived base true).value = true) :
    ∃ edges, a.BaseChain derived edges base ∧ edges ≠ [] ∧
      (a.options.maxInheritanceDepth = 0 ∨ edges.length ≤ a.options.maxInheritanceDepth + 1) := by
  obtain ⟨step, hstep, htarget⟩ := looksAt_of_meets h
  obtain ⟨length, x, hwalk, hwithin, hedge, -⟩ :=
    (a.baseGraph true).isOnWalk_steps _ derived step hstep base htarget
  obtain ⟨edges, hchain, hlength⟩ := exists_baseChain_of_walk (hwalk.tail hedge)
  refine ⟨edges, hchain, ?_, ?_⟩
  · rintro rfl
    cases hlength
  · rw [hlength]
    exact hwithin.imp_right Nat.succ_le_succ

theorem reaches_of_walk {g : Graph EntityId} (hrooted : g.IsRooted) {start target : EntityId}
    (hbound : g.WalksFromWithin a.options.maxInheritanceDepth start)
    (h : g.Walk start (length + 1) target) : (a.reaches g start target).value = true := by
  have hshallow : IsShallow (g.steps { key := id, limit := a.options.maxInheritanceDepth } start) :=
    hbound.isShallow
  cases h with
  | tail hwalk hedge =>
    exact meets_of_looksAt hshallow (looksAt_of_walk hrooted Function.injective_id (fun _ => rfl)
      hshallow hwalk hedge)

theorem ChainsWithin.isBase (h : a.ChainsWithin derived) (hchain : a.BaseChain derived edges base)
    (hne : derived ≠ base) : (a.isBase derived base true).value = true := by
  cases hchain with
  | nil => exact absurd rfl hne
  | cons hedge rest =>
    exact reaches_of_walk a.isRooted_baseGraph h.walksFromWithin (BaseChain.cons hedge rest).walk

/-! ## The three searches -/

/-- A class that is not a category has a distance exactly if a chain within the bound leads to it. A
protection remains there only if it has a distance, and it is found as a base only if a chain leads
to it that exceeds the bound by one edge at most. Where no chain from the derived class exceeds the
bound, the three searches agree. -/
theorem base_searches (a : Atlas) (derived base : EntityId) (c : ClassBody)
    (hbase : a.class? base = some c) (hcategory : c.categoryOf = none) (hne : derived ≠ base) :
    ((a.distance derived base).value.isSome ↔ ∃ edges, a.BaseChain derived edges base ∧
      IsWithin a.options.maxInheritanceDepth edges.length) ∧
    (∀ p, (a.inheritedProtection? derived base p).isSome →
      (a.distance derived base).value.isSome) ∧
    ((a.isBase derived base true).value = true → ∃ edges, a.BaseChain derived edges base ∧
      edges ≠ [] ∧
      (a.options.maxInheritanceDepth = 0 ∨ edges.length ≤ a.options.maxInheritanceDepth + 1)) ∧
    (a.ChainsWithin derived →
      ((a.isBase derived base true).value = true ↔ (a.distance derived base).value.isSome) ∧
      ((a.distance derived base).value.isSome ↔
        ∀ p, (a.inheritedProtection? derived base p).isSome)) := by
  have hdistance := @isSome_distance_iff a derived base c hbase hcategory
  refine ⟨hdistance, ?_, exists_baseChain_of_isBase, fun hwithin => ⟨⟨?_, ?_⟩, ?_, ?_⟩⟩
  · intro p hp
    exact hdistance.mpr (exists_baseChain_of_inheritedProtection? hne hp)
  · intro hisBase
    obtain ⟨edges, hchain, -⟩ := exists_baseChain_of_isBase hisBase
    exact hdistance.mpr ⟨edges, hchain, hwithin edges base hchain⟩
  · intro hsome
    obtain ⟨edges, hchain, -⟩ := hdistance.mp hsome
    exact hwithin.isBase hchain hne
  · intro hsome p
    obtain ⟨edges, hchain, -⟩ := hdistance.mp hsome
    exact hwithin.isSome_inheritedProtection? hne hchain p
  · intro hall
    exact hdistance.mpr (exists_baseChain_of_inheritedProtection? hne (hall .pub))

/-- A class above which there are a short and a long way to one class, and from there a way to the
top. -/
def ladder (bound : Nat) : Atlas :=
  let a := ((empty { maxInheritanceDepth := bound }).naming "Top").naming "High"
  let a := ((a.naming "Middle").naming "Rung").naming "Long"
  let a := (a.naming "Short").naming "Low"
  let a := (a.linkBase ⟨2⟩ { target := ⟨1⟩ }).value
  let a := (a.linkBase ⟨3⟩ { target := ⟨2⟩ }).value
  let a := (a.linkBase ⟨4⟩ { target := ⟨3⟩ }).value
  let a := (a.linkBase ⟨5⟩ { target := ⟨4⟩ }).value
  let a := (a.linkBase ⟨6⟩ { target := ⟨3⟩ }).value
  let a := (a.linkBase ⟨7⟩ { target := ⟨6⟩ }).value
  (a.linkBase ⟨7⟩ { target := ⟨5⟩, protection := .prot }).value

theorem base_searches_ladder :
    (ladder 6).ChainsWithin ⟨7⟩ ∧ ((ladder 6).isBase ⟨7⟩ ⟨1⟩ true).value = true ∧
      ((ladder 6).distance ⟨7⟩ ⟨1⟩).value = some 4 ∧
      ∀ p, ((ladder 6).inheritedProtection? ⟨7⟩ ⟨1⟩ p).isSome := by
  have hdepth : (ladder 6).IsWithinDepth :=
    isWithinDepth_of_earlier (by decide +kernel) (by decide +kernel)
  have hwithin : (ladder 6).ChainsWithin ⟨7⟩ :=
    fun edges base hchain => hdepth.imp_right fun h => h ⟨7⟩ edges base hchain
  have hdistance : ((ladder 6).distance ⟨7⟩ ⟨1⟩).value = some 4 := by decide +kernel
  have hsome := Option.isSome_of_eq_some hdistance
  obtain ⟨c, hc, hcategory⟩ : ∃ c, (ladder 6).class? ⟨1⟩ = some c ∧ c.categoryOf = none :=
    ⟨((ladder 6).class? ⟨1⟩).getD {}, by decide +kernel, by decide +kernel⟩
  obtain ⟨-, -, -, hagree⟩ := base_searches (ladder 6) ⟨7⟩ ⟨1⟩ c hc hcategory (by decide)
  exact ⟨hwithin, (hagree hwithin).1.mpr hsome, hdistance, (hagree hwithin).2.mp hsome⟩

/-- Under a tighter bound a direct base is not found because the search got too deep before it came
to it, one is found that is just too far away to have a distance, and no protection remains at one
that has a distance because the class below it was met on the longer way first. -/
theorem base_searches_differ_ladder :
    ((ladder 3).isBase ⟨7⟩ ⟨5⟩ true).value = false ∧
      ((ladder 3).distance ⟨7⟩ ⟨5⟩).value = some 1 ∧
      (ladder 3).inheritedProtection? ⟨7⟩ ⟨5⟩ .pub = some .prot ∧
      ((ladder 3).isBase ⟨7⟩ ⟨1⟩ true).value = true ∧
      ((ladder 3).distance ⟨7⟩ ⟨1⟩).value = none ∧
      ((ladder 3).distance ⟨7⟩ ⟨2⟩).value = some 3 ∧
      (ladder 3).inheritedProtection? ⟨7⟩ ⟨2⟩ .priv = none := by
  decide +kernel

end SymbolAtlas.Atlas
