import SymbolAtlas.Proofs.Build.Phases
import SymbolAtlas.Proofs.Inheritance.Protection
import SymbolAtlas.Proofs.Inheritance.Provenance

/-!
# Where the members of a built atlas come from

Until members are inherited, a build adds to a tidy atlas and keeps it tidy. So in the atlas that a
build ends with, each class lists the members it had before, unchanged, and behind them the ones
that chains of bases account for.
-/

set_option autoImplicit false

namespace SymbolAtlas.Build

open Atlas

variable {progress : Progress} {a : Atlas}

/-! ## Registering -/

theorem stamp_describe (decl : EntityDecl) (p : Protection) (e : Entity) :
    (describe decl p e).stamp = e.stamp := by
  unfold describe
  rw [Entity.stamp_modifyNamespace]
  rfl

theorem isTidy_declareFormals (h : a.IsTidy) (id : EntityId) (decl : EntityDecl) :
    (declareFormals a id decl).value.IsTidy :=
  declareFormals_kept h.setFormals h

theorem isTidy_registerAs (h : a.IsTidy) (decl : EntityDecl) (kind : EntityKind) (p : Protection) :
    (registerAs a decl kind p).value.1.IsTidy := by
  apply isTidy_declareFormals
  apply Upholds.modifyClass
  · apply Upholds.modifyEntity_of_stamp
    · exact h.register _ _ _
    · exact stamp_describe decl p
  · intro c
    rfl

theorem isTidy_addScope (h : progress.atlas.IsTidy) (scope : String) :
    (addScope progress scope).atlas.IsTidy := by
  apply Upholds.modifyEntity_of_stamp
  · exact h.register _ _ _
  · intro e
    rfl

theorem isTidy_addScopes (h : progress.atlas.IsTidy) : (addScopes progress).atlas.IsTidy :=
  addScopes_kept (P := fun p => p.atlas.IsTidy) (fun _ scope hp => isTidy_addScope hp scope) h

theorem isTidy_linkScopes (h : progress.atlas.IsTidy) : (linkScopes progress).atlas.IsTidy := by
  exact foldl_kept (fun a pair ha => ha.setOuter pair.1 pair.2) _ h

/-! ## Members and bases -/

theorem isTidy_addMember (h : progress.atlas.IsTidy) (owner : Declared) (decl : MemberDecl) :
    (addMember owner progress decl).value.atlas.IsTidy := by
  refine addMember_kept (P := fun p => p.atlas.IsTidy) (fun m _ => ?_) h
  have hadded := h.addMember (some owner.1) m
  exact ⟨hadded, fun _ => hadded.insertMember fun _ hm' hhidden =>
    h.lists_addMember owner.1 m hm' hhidden⟩

theorem isTidy_addMembers (h : progress.atlas.IsTidy) (declared : List Declared) :
    (addMembers progress declared).value.atlas.IsTidy :=
  addMembers_kept (P := fun p => p.atlas.IsTidy)
    (fun owner _ decl hp => isTidy_addMember hp owner decl) declared h

theorem isTidy_addPlaceholder (h : a.IsTidy) (name : String) :
    (addPlaceholder a name).1.IsTidy := by
  apply Upholds.modifyEntity_of_stamp
  · split
    · exact h.allocate _ _ _
    · exact h.register _ _ _
  · intro e
    rfl

/-! ## The whole build -/

/-- Until members are inherited, a roster lists own members only. -/
theorem isTidy_assemble (h : a.IsTidy) (d : Document) : (assemble a d).value.atlas.IsTidy := by
  have hregistered : (registerAll { atlas := a } d).value.1.atlas.IsTidy :=
    Noted.foldlM_kept (P := fun s : Progress × List Declared => s.1.atlas.IsTidy)
      (fun s decl hs => registerOne_kept (P := fun s => s.1.atlas.IsTidy)
        (fun kind p _ _ => isTidy_registerAs hs decl kind p) hs) _ h
  have hprepared : (prepare a d).value.1.atlas.IsTidy :=
    isTidy_addMembers (isTidy_linkScopes (isTidy_addScopes hregistered)) _
  have hbased := (LinksKeep.of_always (P := fun p => p.atlas.IsTidy)
    (fun _ name hp => isTidy_addPlaceholder hp name)
    fun _ child edge hp => hp.linkBase child edge).addBases_of_always
    (fun _ _ _ _ hmade hp => hp.instantiate hmade) hprepared (prepare a d).value.2
  apply Noted.foldlM_kept (P := fun p : Progress => p.atlas.IsTidy)
  · exact fun p owner hp => addUsings_kept (P := fun p => p.atlas.IsTidy) (fun _ hp => hp)
      (fun _ id f hp => hp.modifyNamespace id f) owner hp
  · exact Noted.foldlM_kept (P := fun p : Progress => p.atlas.IsTidy) (fun p owner hp =>
      mergeCategoryOf_kept (P := fun p => p.atlas.IsTidy) (fun _ _ hmerged => hp.mergeCategory hmerged)
        hp) _ hbased

/-- In the atlas that a build ends with, each class lists under each name the members that it had
before members were inherited, unchanged and in their order. All views behind them are inherited
along chains of bases. -/
theorem roster_run_provenance (options : Options) (d : Document) (id : EntityId) (name : String) :
    let before := (assemble (.empty options) d).value.atlas
    let after := (run options d).value.1
    ∃ inherited,
      (after.rosterOf id).under name = (before.rosterOf id).under name ++ inherited ∧
      (∀ v ∈ (before.rosterOf id).under name, v.isInherited = false) ∧
      ∀ t ∈ inherited, ∃ m edges base, after.IsInheritedFrom id name t m edges base := by
  intro before after
  have htidy : before.IsTidy := isTidy_assemble (.empty .tidy rfl options) d
  have hafter : after = before.mergeAll.value.1.closeAllUsing := by
    rfl
  have hprovenance : HasProvenance before after := by
    rw [hafter]
    exact (hasProvenance_mergeAll htidy.listsOwnViews).closeAllUsing
  obtain ⟨inherited, heq, hinherited⟩ := hprovenance.rosters id name
  refine ⟨inherited, heq, fun v hv => (htidy.listsOwnViews id name v hv).isInherited, ?_⟩
  intro t ht
  obtain ⟨m, edges, base, hfrom⟩ := hinherited t ht
  exact ⟨m, edges, base, hprovenance.isInheritedFrom hfrom⟩

/-- Three classes in a circle, with a virtual edge in it. Two of them declare a function of one
name. -/
def circle : Document where
  entities :=
    [{ name := "Shape", kind := "class", bases := [.plain "Disc"],
       members := [{ name := "draw", kind := "function", args := "()" }] },
     { name := "Figure", kind := "class", bases := [.detailed "Shape" none (some "virtual")] },
     { name := "Disc", kind := "class", bases := [.plain "Figure"],
       members := [{ name := "draw", kind := "function", args := "(int radius)" }] }]

/-- A class in a circle inherits what it declares itself, all the way round. -/
theorem roster_run_provenance_circle :
    let after := (run {} circle).value.1
    ∃ t ∈ (after.rosterOf ⟨1⟩).under "draw", t.path = "Disc::Figure::Shape::" ∧
      t.virtualness = .virtual ∧
      ∃ m edges base, after.IsInheritedFrom ⟨1⟩ "draw" t m edges base := by
  obtain ⟨inherited, heq, hown, hinherited⟩ := roster_run_provenance {} circle ⟨1⟩ "draw"
  have hlisted : ∃ t ∈ ((run {} circle).value.1.rosterOf ⟨1⟩).under "draw",
      t.isInherited = true ∧ t.path = "Disc::Figure::Shape::" ∧ t.virtualness = .virtual := by
    decide +kernel
  obtain ⟨t, ht, hflag, hpath, hvirtualness⟩ := hlisted
  refine ⟨t, ht, hpath, hvirtualness, hinherited t ?_⟩
  rw [heq] at ht
  rcases List.mem_append.mp ht with ht | ht
  · rw [hown t ht] at hflag
    cases hflag
  · exact ht

end SymbolAtlas.Build
